import DocScope.Proofs.Scope.Remembered

/-!
# Questions that fail

A backend falls short of another one if each of its answers is the other's or an error
(`VersionControl.FallsShortOf`); which questions fail may change from one time to the next. A failed
question counts as answered by the empty set, and what it led to is remembered. So a resolver that
asks such a backend knows only parts of the plain sets, whatever fails:

* `Resolver.Within`: every remembered set is a part of the plain one.
* `askChanged_within`, `askAdded_within`: so is the set that a question leads to.
* `changedIn_within`, `addedIn_within`, `inScope_within`: a resolver keeps `Within`, and what it
  takes to be in scope is in scope by the plain sets.
-/

namespace DocScope

/-- A backend that answers each question as `v` does, or fails. -/
structure VersionControl.FallsShortOf (w v : VersionControl) : Prop where
  changedFiles : ∀ n scope, w.changedFiles n scope = v.changedFiles n scope ∨
    ∃ e, w.changedFiles n scope = .error e
  addedLines : ∀ n scope path, w.addedLines n scope path = v.addedLines n scope path ∨
    ∃ e, w.addedLines n scope path = .error e

/-- Failures can be put on any questions. -/
theorem VersionControl.failing_fallsShortOf (v : VersionControl) (fails : Nat → Bool)
    (e : VcsError) : (v.failing fails e).FallsShortOf v := by
  constructor
  · intro n scope
    cases hn : fails n
    · exact .inl (by simp [failing, hn])
    · exact .inr ⟨e, by simp [failing, hn]⟩
  · intro n scope path
    cases hn : fails n
    · exact .inl (by simp [failing, hn])
    · exact .inr ⟨e, by simp [failing, hn]⟩

namespace Resolver

/-- The resolver with another backend. -/
def withVcs (r : Resolver) (w : VersionControl) : Resolver := { r with vcs := w }

@[simp] theorem withVcs_selector (r : Resolver) (w : VersionControl) :
    (r.withVcs w).selector = r.selector := rfl

@[simp] theorem withVcs_world (r : Resolver) (w : VersionControl) : (r.withVcs w).world = r.world := rfl

@[simp] theorem withVcs_relativePath? (r : Resolver) (w : VersionControl) (file : String) :
    (r.withVcs w).relativePath? file = r.relativePath? file := rfl

/-- Every remembered set is a part of the plain one. -/
structure Within (r : Resolver) (s : Session) : Prop where
  changed : ∀ scope set, s.cache.changed.lookup scope = some set →
    ∀ path, set.contains path = true → (r.plainChanged scope).contains path = true
  added : ∀ k set, s.cache.added.lookup k = some set →
    ∀ line, set.contains line = true → (r.plainAdded k.1 k.2).contains line = true

theorem Within.fresh (r : Resolver) : r.Within .fresh :=
  ⟨fun _ _ h => (by cases h), fun _ _ h => (by cases h)⟩

theorem Within.ask {r : Resolver} {s : Session} (h : r.Within s) (q : Query) :
    r.Within (s.ask q) := ⟨h.changed, h.added⟩

theorem forall_lookup_cons {α β : Type} [BEq α] [LawfulBEq α] {P : α → β → Prop} {k : α} {v : β}
    {l : List (α × β)} (hkv : P k v) (hl : ∀ k' v', l.lookup k' = some v' → P k' v') :
    ∀ k' v', ((k, v) :: l).lookup k' = some v' → P k' v' := by
  intro k' v' h
  rw [List.lookup_cons] at h
  split at h
  · next heq =>
    obtain rfl := beq_iff_eq.1 heq
    obtain rfl := Option.some.inj h
    exact hkv
  · exact hl k' v' h

theorem Within.rememberChanged {r : Resolver} {s : Session} (h : r.Within s) {scope : DiffScope}
    {set : ChangedFiles}
    (hset : ∀ path, set.contains path = true → (r.plainChanged scope).contains path = true) :
    r.Within (s.rememberChanged scope set) := ⟨forall_lookup_cons hset h.changed, h.added⟩

theorem Within.rememberAdded {r : Resolver} {s : Session} (h : r.Within s) {scope : DiffScope}
    {path : String} {set : AddedLines}
    (hset : ∀ line, set.contains line = true → (r.plainAdded scope path).contains line = true) :
    r.Within (s.rememberAdded scope path set) := ⟨h.changed, forall_lookup_cons hset h.added⟩

section
variable {r : Resolver} {w : VersionControl} (hv : r.vcs.Fixed) (hw : w.FallsShortOf r.vcs)
include hv hw

theorem askChanged_within {s : Session} (h : r.Within s) (scope : DiffScope) :
    (∀ path, ((r.withVcs w).askChanged scope s).1.contains path = true →
      (r.plainChanged scope).contains path = true) ∧
      r.Within ((r.withVcs w).askChanged scope s).2 := by
  refine ⟨fun path hp => ?_, h.ask _⟩
  rcases hw.changedFiles s.calls scope with he | ⟨e, he⟩
  · have hask : (r.withVcs w).askChanged scope s = r.askChanged scope s := by
      simp only [askChanged, withVcs, he]
    rwa [hask, askChanged_eq hv] at hp
  · have hempty : ((r.withVcs w).askChanged scope s).1 = .empty := by
      simp only [askChanged, withVcs, he]
    rw [hempty] at hp
    cases hp

theorem askAdded_within {s : Session} (h : r.Within s) (scope : DiffScope) (path : String) :
    (∀ line, ((r.withVcs w).askAdded scope path s).1.contains line = true →
      (r.plainAdded scope path).contains line = true) ∧
      r.Within ((r.withVcs w).askAdded scope path s).2 := by
  refine ⟨fun line hl => ?_, h.ask _⟩
  rcases hw.addedLines s.calls scope path with he | ⟨e, he⟩
  · have hask : (r.withVcs w).askAdded scope path s = r.askAdded scope path s := by
      simp only [askAdded, withVcs, he]
    rwa [hask, askAdded_eq hv] at hl
  · have hempty : ((r.withVcs w).askAdded scope path s).1 = .empty := by
      simp only [askAdded, withVcs, he]
    rw [hempty] at hl
    cases hl

theorem changedIn_within {s : Session} (h : r.Within s) (scope : DiffScope) :
    (∀ path, ((r.withVcs w).changedIn scope s).1.contains path = true →
      (r.plainChanged scope).contains path = true) ∧
      r.Within ((r.withVcs w).changedIn scope s).2 := by
  obtain ⟨hset, hs⟩ := askChanged_within hv hw h scope
  unfold changedIn
  split
  · cases hl : s.cache.changed.lookup scope with
    | some set => exact ⟨h.changed scope set hl, h⟩
    | none => exact ⟨hset, hs.rememberChanged hset⟩
  · exact ⟨hset, hs⟩

theorem addedIn_within {s : Session} (h : r.Within s) (scope : DiffScope) (path : String) :
    (∀ line, ((r.withVcs w).addedIn scope path s).1.contains line = true →
      (r.plainAdded scope path).contains line = true) ∧
      r.Within ((r.withVcs w).addedIn scope path s).2 := by
  obtain ⟨hset, hs⟩ := askAdded_within hv hw h scope path
  unfold addedIn
  split
  · cases hl : s.cache.added.lookup (scope, path) with
    | some set => exact ⟨h.added (scope, path) set hl, h⟩
    | none => exact ⟨hset, hs.rememberAdded hset⟩
  · exact ⟨hset, hs⟩

theorem inScope_within {s : Session} (h : r.Within s) (file : String) (line : Nat) :
    (((r.withVcs w).inScope file line s).1 = true → r.plainInScope file line = true) ∧
      r.Within ((r.withVcs w).inScope file line s).2 := by
  unfold inScope plainInScope
  rw [withVcs_selector, withVcs_relativePath?]
  cases r.selector.diffScope? with
  | none => exact ⟨fun _ => rfl, h⟩
  | some scope =>
    cases r.relativePath? file with
    | none => exact ⟨fun hb => (by cases hb), h⟩
    | some path =>
      obtain ⟨hchanged, h₁⟩ := changedIn_within hv hw h scope
      obtain ⟨hadded, h₂⟩ := addedIn_within hv hw h₁ scope path
      simp only
      split
      · next hc =>
        refine ⟨fun hb => ?_, h₂⟩
        rw [hchanged path hc, hadded line hb]
        rfl
      · exact ⟨fun hb => (by cases hb), h₁⟩

end

end Resolver

end DocScope
