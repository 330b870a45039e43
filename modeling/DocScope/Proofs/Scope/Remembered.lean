import DocScope.Scope.Resolver

/-!
# What a session remembers

Against a backend with fixed answers, everything a resolver can learn is known beforehand:
`plainChanged` and `plainAdded` are the sets made of the answers, `plainInScope` is the decision
they lead to. This file says what a session that is only used with memory looks like:

* `Remembers`: the cache is the one that belongs to the log (`cacheOf`), so every remembered set is
  the plain one, and no question stands in the log twice.
* `changedIn_spec`, `addedIn_spec`, `inScope_spec`: a resolver with memory gives the plain answer,
  keeps `Remembers`, and the log grows by what the answer depends on, and by nothing else.
* `changedIn_plain`, `addedIn_plain`, `inScope_plain`: a resolver without memory gives the plain
  answer and asks for all of it again.
-/

namespace DocScope

/-! ## Questions as keys -/

/-- The diff whose files a question is about. -/
def Query.changedKey? : Query → Option DiffScope
  | .changedFiles scope => some scope
  | .addedLines _ _ => none

/-- The diff and the file whose added lines a question is about. -/
def Query.addedKey? : Query → Option (DiffScope × String)
  | .changedFiles _ => none
  | .addedLines scope path => some (scope, path)

theorem Query.changedKey?_eq_some {q : Query} {scope : DiffScope} :
    q.changedKey? = some scope ↔ q = .changedFiles scope := by
  cases q <;> simp [changedKey?]

theorem Query.addedKey?_eq_some {q : Query} {k : DiffScope × String} :
    q.addedKey? = some k ↔ q = .addedLines k.1 k.2 := by
  cases q <;> simp [addedKey?, Prod.ext_iff]

theorem mem_changedKeys {qs : List Query} {scope : DiffScope} :
    scope ∈ qs.filterMap Query.changedKey? ↔ Query.changedFiles scope ∈ qs := by
  simp [Query.changedKey?_eq_some]

theorem mem_addedKeys {qs : List Query} {k : DiffScope × String} :
    k ∈ qs.filterMap Query.addedKey? ↔ Query.addedLines k.1 k.2 ∈ qs := by
  simp [Query.addedKey?_eq_some]

theorem nodup_addedKeys {qs : List Query} (h : qs.Nodup) :
    (qs.filterMap Query.addedKey?).Nodup := by
  refine List.Pairwise.filterMap Query.addedKey? (fun a b hab x hx y hy hxy => hab ?_) h
  subst hxy
  rw [Query.addedKey?_eq_some.1 hx, Query.addedKey?_eq_some.1 hy]

theorem lookup_map_key {α β : Type} [BEq α] [LawfulBEq α] (f : α → β) (ks : List α) (k : α) :
    (ks.map fun a => (a, f a)).lookup k = if k ∈ ks then some (f k) else none := by
  induction ks with
  | nil => rfl
  | cons a ks ih =>
    rw [List.map_cons, List.lookup_cons]
    by_cases h : k = a
    · subst h; simp
    · rw [show (k == a) = false by simpa using h, ih]
      simp [h]

/-- The paths that are listed for a diff, none if the question fails. -/
def VersionControl.listed (vcs : VersionControl) (scope : DiffScope) : List String :=
  match vcs.changedFiles 0 scope with
  | .ok paths => paths
  | .error _ => []

namespace Resolver

/-! ## Plain answers -/

/-- The changed files of a diff, as the backend gives them. -/
def plainChanged (r : Resolver) (scope : DiffScope) : ChangedFiles := (r.askChanged scope .fresh).1

theorem plainChanged_eq (r : Resolver) (scope : DiffScope) :
    r.plainChanged scope = ChangedFiles.ofPaths (r.vcs.listed scope) r.sourceRoot := by
  have h0 : Session.fresh.calls = 0 := rfl
  simp only [plainChanged, askChanged, VersionControl.listed, h0]
  cases r.vcs.changedFiles 0 scope with
  | ok paths => rfl
  | error e => simp [ChangedFiles.ofPaths, ChangedFiles.empty, ascending, dropRepeats]

/-- The lines that a diff adds to a file, as the backend gives them. -/
def plainAdded (r : Resolver) (scope : DiffScope) (path : String) : AddedLines :=
  (r.askAdded scope path .fresh).1

/-- Whether a line is in scope, decided by the plain sets. -/
def plainInScope (r : Resolver) (file : String) (line : Nat) : Bool :=
  match r.selector.diffScope?, r.relativePath? file with
  | none, _ => true
  | some _, none => false
  | some scope, some path =>
    (r.plainChanged scope).contains path && (r.plainAdded scope path).contains line

/-- The questions on whose answers it depends whether a line is in scope. -/
def scopeQueries (r : Resolver) (file : String) : List Query :=
  match r.selector.diffScope?, r.relativePath? file with
  | some scope, some path =>
    .changedFiles scope ::
      if (r.plainChanged scope).contains path then [.addedLines scope path] else []
  | _, _ => []

section
variable {r : Resolver} (hv : r.vcs.Fixed)
include hv

theorem askChanged_eq (scope : DiffScope) (s : Session) :
    r.askChanged scope s = (r.plainChanged scope, s.ask (.changedFiles scope)) := by
  simp only [plainChanged, askChanged, hv.1 s.calls Session.fresh.calls]

theorem askAdded_eq (scope : DiffScope) (path : String) (s : Session) :
    r.askAdded scope path s = (r.plainAdded scope path, s.ask (.addedLines scope path)) := by
  simp only [plainAdded, askAdded, hv.2 s.calls Session.fresh.calls]

/-! ## Without memory -/

theorem changedIn_plain (hc : r.cached = false) (scope : DiffScope) (s : Session) :
    r.changedIn scope s = (r.plainChanged scope, s.ask (.changedFiles scope)) := by
  simp [changedIn, hc, askChanged_eq hv]

theorem addedIn_plain (hc : r.cached = false) (scope : DiffScope) (path : String) (s : Session) :
    r.addedIn scope path s = (r.plainAdded scope path, s.ask (.addedLines scope path)) := by
  simp [addedIn, hc, askAdded_eq hv]

theorem inScope_plain (hc : r.cached = false) (file : String) (line : Nat) (s : Session) :
    r.inScope file line s =
      (r.plainInScope file line, { s with asked := (r.scopeQueries file).reverse ++ s.asked }) := by
  unfold inScope plainInScope scopeQueries
  cases r.selector.diffScope? with
  | none => rfl
  | some scope =>
    cases r.relativePath? file with
    | none => rfl
    | some path =>
      simp only [changedIn_plain hv hc, addedIn_plain hv hc]
      cases (r.plainChanged scope).contains path <;> simp [Session.ask]

end

/-! ## With memory -/

/-- The cache that belongs to a log: what was made of the answers to its questions. -/
def cacheOf (r : Resolver) (asked : List Query) : ScopeCache where
  changed := (asked.filterMap Query.changedKey?).map fun scope => (scope, r.plainChanged scope)
  added := (asked.filterMap Query.addedKey?).map fun k => (k, r.plainAdded k.1 k.2)

/-- The invariant of a session that is only used with memory (module doc). -/
structure Remembers (r : Resolver) (s : Session) : Prop where
  cache : s.cache = r.cacheOf s.asked
  once : s.asked.Nodup

theorem Remembers.fresh (r : Resolver) : r.Remembers .fresh := ⟨rfl, List.nodup_nil⟩

/-- The selector of a resolver plays no part in what a session remembers. -/
theorem Remembers.of_same {r r' : Resolver} {s : Session} (h : r.Remembers s)
    (hv : r'.vcs = r.vcs) (hr : r'.sourceRoot = r.sourceRoot) : r'.Remembers s := by
  refine ⟨?_, h.once⟩
  rw [h.cache]
  simp only [cacheOf, plainChanged, plainAdded, askChanged, askAdded, hv, hr]

/-- A session extends another one by questions: it remembers, and its log has the old questions
and the given ones. -/
structure Extends (r : Resolver) (s s' : Session) (new : List Query) : Prop where
  remembers : r.Remembers s'
  mem_asked : ∀ q, q ∈ s'.asked ↔ q ∈ s.asked ∨ q ∈ new

theorem Extends.refl {r : Resolver} {s : Session} (h : r.Remembers s) : r.Extends s s [] :=
  ⟨h, fun q => by simp⟩

theorem Extends.trans {r : Resolver} {s₁ s₂ s₃ : Session} {qs qs' : List Query}
    (h₁ : r.Extends s₁ s₂ qs) (h₂ : r.Extends s₂ s₃ qs') : r.Extends s₁ s₃ (qs ++ qs') :=
  ⟨h₂.remembers, fun q => by rw [h₂.mem_asked, h₁.mem_asked, List.mem_append, or_assoc]⟩

theorem Extends.of_mem {r : Resolver} {s : Session} {q : Query} (h : r.Remembers s)
    (hq : q ∈ s.asked) : r.Extends s s [q] := by
  refine ⟨h, fun x => ⟨.inl, ?_⟩⟩
  rintro (hx | hx)
  · exact hx
  · rwa [List.mem_singleton.1 hx]

theorem Extends.of_not_mem {r : Resolver} {s s' : Session} {q : Query} (h : r.Remembers s)
    (hq : q ∉ s.asked) (ha : s'.asked = q :: s.asked) (hc : s'.cache = r.cacheOf (q :: s.asked)) :
    r.Extends s s' [q] := by
  refine ⟨⟨by rw [hc, ha], by rw [ha]; exact List.nodup_cons.2 ⟨hq, h.once⟩⟩, fun x => ?_⟩
  rw [ha, List.mem_cons, List.mem_singleton, or_comm]

section
variable {r : Resolver} {s : Session}

theorem Remembers.lookup_changed (h : r.Remembers s) (scope : DiffScope) :
    s.cache.changed.lookup scope =
      if Query.changedFiles scope ∈ s.asked then some (r.plainChanged scope) else none := by
  rw [h.cache]
  simp only [cacheOf, lookup_map_key, mem_changedKeys]

theorem Remembers.lookup_added (h : r.Remembers s) (scope : DiffScope) (path : String) :
    s.cache.added.lookup (scope, path) =
      if Query.addedLines scope path ∈ s.asked then some (r.plainAdded scope path) else none := by
  rw [h.cache]
  simp only [cacheOf, lookup_map_key fun k : DiffScope × String => r.plainAdded k.1 k.2,
    mem_addedKeys]

/-- The files whose added lines are known are the ones that were asked about. -/
theorem Remembers.cachedFiles_eq (h : r.Remembers s) :
    s.cache.cachedFiles = (s.asked.filterMap Query.addedKey?).length := by
  rw [h.cache]
  simp [ScopeCache.cachedFiles, cacheOf]

variable (hv : r.vcs.Fixed) (hc : r.cached = true) (hs : r.Remembers s)
include hv hc hs

theorem changedIn_spec (scope : DiffScope) :
    (r.changedIn scope s).1 = r.plainChanged scope ∧
      r.Extends s (r.changedIn scope s).2 [.changedFiles scope] := by
  unfold changedIn
  simp only [hc, ↓reduceIte, hs.lookup_changed, askChanged_eq hv]
  by_cases hq : Query.changedFiles scope ∈ s.asked
  · rw [if_pos hq]
    exact ⟨rfl, .of_mem hs hq⟩
  · rw [if_neg hq]
    refine ⟨rfl, .of_not_mem hs hq rfl ?_⟩
    simp [Session.rememberChanged, Session.ask, hs.cache, cacheOf, List.filterMap_cons,
      Query.changedKey?, Query.addedKey?]

theorem addedIn_spec (scope : DiffScope) (path : String) :
    (r.addedIn scope path s).1 = r.plainAdded scope path ∧
      r.Extends s (r.addedIn scope path s).2 [.addedLines scope path] := by
  unfold addedIn
  simp only [hc, ↓reduceIte, hs.lookup_added, askAdded_eq hv]
  by_cases hq : Query.addedLines scope path ∈ s.asked
  · rw [if_pos hq]
    exact ⟨rfl, .of_mem hs hq⟩
  · rw [if_neg hq]
    refine ⟨rfl, .of_not_mem hs hq rfl ?_⟩
    simp [Session.rememberAdded, Session.ask, hs.cache, cacheOf, List.filterMap_cons,
      Query.changedKey?, Query.addedKey?]

theorem inScope_spec (file : String) (line : Nat) :
    (r.inScope file line s).1 = r.plainInScope file line ∧
      r.Extends s (r.inScope file line s).2 (r.scopeQueries file) := by
  unfold inScope plainInScope scopeQueries
  cases r.selector.diffScope? with
  | none => exact ⟨rfl, .refl hs⟩
  | some scope =>
    cases r.relativePath? file with
    | none => exact ⟨rfl, .refl hs⟩
    | some path =>
      obtain ⟨h1, e1⟩ := changedIn_spec hv hc hs scope
      obtain ⟨h2, e2⟩ := addedIn_spec hv hc e1.remembers scope path
      simp only [h1]
      cases (r.plainChanged scope).contains path with
      | false => exact ⟨rfl, e1⟩
      | true =>
        rw [Bool.true_and, ← h2]
        exact ⟨rfl, e1.trans e2⟩

end

end Resolver

end DocScope
