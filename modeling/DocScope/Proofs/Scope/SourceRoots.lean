import DocScope.Proofs.Diff.ChangedFiles
import DocScope.Proofs.Scope.SharedCache

/-!
# Source roots of resolvers that share a cache

A resolver remembers the changed files of a diff after it has left out those that are not under its
source root, and it remembers them by the diff alone. So the first call that looks at the changed
files of a diff sets the source root for all calls after it.

* `Led vcs lead s`: the session `s` remembers, for every diff, the changed files under the source
  root that `lead` says, and the added lines as `vcs` gives them.
* `Resolver.changedIn_led`, `Resolver.addedIn_led`, `Question.put_led`: what one call answers, and
  what it makes of such a session.
* `answers_led`: every call is answered under the source root of the first one that looks at the
  same changed files (`Resolver.ledBy`), by induction over the calls.
* `Question.plain_under_iff`: on which paths two source roots have to agree for one answer.
* `answers_own_roots_iff`: exactly when sharing the cache does not show.
-/

namespace DocScope

namespace Resolver

def under (r : Resolver) (sourceRoot : Option String) : Resolver := { r with sourceRoot }

def forgetful (r : Resolver) : Resolver := { r with cached := false }

theorem plainAdded_congr {r r' : Resolver} (h : r.vcs = r'.vcs) (scope : DiffScope)
    (path : String) : r.plainAdded scope path = r'.plainAdded scope path := by
  simp only [plainAdded, askAdded, h]

@[simp] theorem under_selector (r : Resolver) (ρ : Option String) :
    (r.under ρ).selector = r.selector := rfl

@[simp] theorem under_relativePath? (r : Resolver) (ρ : Option String) (file : String) :
    (r.under ρ).relativePath? file = r.relativePath? file := rfl

@[simp] theorem under_plainAdded (r : Resolver) (ρ : Option String) (scope : DiffScope)
    (path : String) : (r.under ρ).plainAdded scope path = r.plainAdded scope path := rfl

@[simp] theorem under_plainChanged (r : Resolver) (ρ : Option String) (scope : DiffScope) :
    (r.under ρ).plainChanged scope = ChangedFiles.ofPaths (r.vcs.listed scope) ρ :=
  plainChanged_eq _ _

end Resolver

/-- The diff whose changed files the answer to a question depends on. -/
def Question.looksAt? (q : Question) (r : Resolver) : Option DiffScope :=
  match q with
  | .inScope file _ => if (r.relativePath? file).isSome then r.selector.diffScope? else none
  | .changedFiles => r.selector.diffScope?
  | .addedLines _ => none

/-! ## One call -/

/-- The source root that is set for each diff, if one is. -/
abbrev Lead := DiffScope → Option (Option String)

structure Led (vcs : VersionControl) (lead : Lead) (s : Session) : Prop where
  changed : ∀ scope, s.cache.changed.lookup scope =
    (lead scope).map (ChangedFiles.ofPaths (vcs.listed scope))
  added : ∀ (r : Resolver) (scope : DiffScope) (path : String) (set : AddedLines), r.vcs = vcs →
    s.cache.added.lookup (scope, path) = some set → set = r.plainAdded scope path

theorem Led.fresh (vcs : VersionControl) : Led vcs (fun _ => none) .fresh :=
  ⟨fun _ => rfl, fun _ _ _ _ _ h => by cases h⟩

/-- The source roots after a look at the changed files of a diff: what is set stays. -/
def Lead.after (lead : Lead) (looked : Option DiffScope) (sourceRoot : Option String) : Lead :=
  fun scope => (lead scope).or (if looked = some scope then some sourceRoot else none)

theorem Lead.after_none (lead : Lead) (ρ : Option String) : lead.after none ρ = lead := by
  funext scope
  simp [after]

theorem Lead.after_of_some {lead : Lead} {scope : DiffScope} {ρ : Option String}
    (h : lead scope = some ρ) (ρ' : Option String) : lead.after (some scope) ρ' = lead := by
  funext d
  by_cases hd : scope = d
  · subst hd
    simp [after, h]
  · simp [after, hd]

namespace Resolver

/-- The resolver under the source root that is set for the changed files a question looks at. -/
def ledBy (r : Resolver) (lead : Lead) (q : Question) : Resolver :=
  match q.looksAt? r with
  | some scope => r.under ((lead scope).getD r.sourceRoot)
  | none => r

section
variable {r : Resolver} {s : Session} {lead : Lead} (hv : r.vcs.Fixed) (hc : r.cached = true)
  (hs : Led r.vcs lead s)
include hv hc hs

theorem changedIn_led (scope : DiffScope) :
    (r.changedIn scope s).1 =
        ChangedFiles.ofPaths (r.vcs.listed scope) ((lead scope).getD r.sourceRoot) ∧
      Led r.vcs (lead.after (some scope) r.sourceRoot) (r.changedIn scope s).2 := by
  unfold changedIn
  simp only [hc, ↓reduceIte, hs.changed scope, askChanged_eq hv, plainChanged_eq]
  cases hl : lead scope with
  | some ρ =>
    rw [Lead.after_of_some hl]
    exact ⟨rfl, hs⟩
  | none =>
    refine ⟨rfl, fun d => ?_, fun r' d path set hr' h => hs.added r' d path set hr' h⟩
    by_cases hd : scope = d
    · subst hd
      simp [Session.rememberChanged, Session.ask, Lead.after, hl]
    · have hd' : (d == scope) = false := by simpa using Ne.symm hd
      simp [Session.rememberChanged, Session.ask, List.lookup_cons, Lead.after, hd, hd',
        hs.changed d]

theorem addedIn_led (scope : DiffScope) (path : String) :
    (r.addedIn scope path s).1 = r.plainAdded scope path ∧
      Led r.vcs lead (r.addedIn scope path s).2 := by
  unfold addedIn
  simp only [hc, ↓reduceIte, askAdded_eq hv]
  cases hl : s.cache.added.lookup (scope, path) with
  | some set => exact ⟨hs.added r scope path set rfl hl, hs⟩
  | none =>
    refine ⟨rfl, hs.changed, fun r' d p set hr' h => ?_⟩
    simp only [Session.rememberAdded, Session.ask, List.lookup_cons] at h
    split at h
    · next heq =>
      obtain ⟨rfl, rfl⟩ := Prod.mk.inj (beq_iff_eq.1 heq)
      cases h
      exact plainAdded_congr hr'.symm _ _
    · exact hs.added r' d p set hr' h

end

end Resolver

namespace Question

/-- A call is answered under the source root that is set, and sets its own one if none is. -/
theorem put_led {r : Resolver} {s : Session} {lead : Lead} (hv : r.vcs.Fixed)
    (hc : r.cached = true) (hs : Led r.vcs lead s) (q : Question) :
    (q.put r s).1 = q.plain (r.ledBy lead q) ∧
      Led r.vcs (lead.after (q.looksAt? r) r.sourceRoot) (q.put r s).2 := by
  cases hscope : r.selector.diffScope? with
  | none =>
    -- under `full` nothing is looked at
    have hq : q.looksAt? r = none := by cases q <;> simp [looksAt?, hscope]
    rw [hq, Lead.after_none, Resolver.ledBy, hq]
    cases q <;>
      simpa [put, plain, Resolver.inScope, Resolver.changedFiles, Resolver.addedLines,
        Resolver.plainInScope, hscope] using hs
  | some scope =>
    obtain ⟨h1, e1⟩ := Resolver.changedIn_led hv hc hs scope
    cases q with
    | changedFiles =>
      have hq : Question.changedFiles.looksAt? r = some scope := hscope
      rw [hq, Resolver.ledBy, hq]
      simp only [put, plain, Resolver.changedFiles, Resolver.under_selector,
        Resolver.under_plainChanged, hscope, ← h1]
      exact ⟨rfl, e1⟩
    | addedLines file =>
      have hq : (Question.addedLines file).looksAt? r = none := rfl
      rw [hq, Lead.after_none, Resolver.ledBy, hq]
      simp only [put, plain, Resolver.addedLines, hscope]
      cases r.relativePath? file with
      | none => exact ⟨rfl, hs⟩
      | some path =>
        obtain ⟨h2, e2⟩ := Resolver.addedIn_led hv hc hs scope path
        exact ⟨congrArg Answer.lines h2, e2⟩
    | inScope file line =>
      cases hfile : r.relativePath? file with
      | none =>
        have hq : (Question.inScope file line).looksAt? r = none := by simp [looksAt?, hfile]
        rw [hq, Lead.after_none, Resolver.ledBy, hq]
        simpa [put, plain, Resolver.inScope, Resolver.plainInScope, hscope, hfile] using hs
      | some path =>
        have hq : (Question.inScope file line).looksAt? r = some scope := by
          simp [looksAt?, hfile, hscope]
        obtain ⟨h2, e2⟩ := Resolver.addedIn_led hv hc e1 scope path
        rw [hq, Resolver.ledBy, hq]
        simp only [put, plain, Resolver.inScope, Resolver.plainInScope, Resolver.under_selector,
          Resolver.under_relativePath?, Resolver.under_plainChanged, Resolver.under_plainAdded,
          hscope, hfile, ← h1]
        cases (r.changedIn scope s).1.contains path with
        | false => exact ⟨rfl, e1⟩
        | true =>
          rw [Bool.true_and, ← h2]
          exact ⟨rfl, e2⟩

end Question

/-! ## A sequence of calls -/

/-- The source root of the first call that looks at the changed files of a diff. -/
def leadOf (calls : List (Resolver × Question)) : Lead := fun scope =>
  (calls.find? fun c => c.2.looksAt? c.1 = some scope).map (·.1.sourceRoot)

theorem leadOf_concat (calls : List (Resolver × Question)) (r : Resolver) (q : Question) :
    leadOf (calls ++ [(r, q)]) = (leadOf calls).after (q.looksAt? r) r.sourceRoot := by
  funext scope
  simp only [leadOf, Lead.after, List.find?_append, List.find?_singleton, Option.map_or]
  split <;> simp_all

/-- A call looks under the root that is set by the calls up to it; later ones change nothing. -/
theorem ledBy_leadOf (before after : List (Resolver × Question)) (r : Resolver) (q : Question) :
    r.ledBy (leadOf (before ++ (r, q) :: after)) q = r.ledBy (leadOf before) q := by
  unfold Resolver.ledBy
  cases hq : q.looksAt? r with
  | none => rfl
  | some scope =>
    simp only [leadOf, List.find?_append, List.find?_cons, hq, decide_true]
    cases before.find? fun c => c.2.looksAt? c.1 = some scope with
    | none => rfl
    | some c => rfl

theorem answers_led {vcs : VersionControl} (hv : vcs.Fixed) :
    ∀ (calls before : List (Resolver × Question)) (s : Session),
      (∀ c ∈ calls, c.1.vcs = vcs ∧ c.1.cached = true) → Led vcs (leadOf before) s →
      (answers calls s).1 = calls.map fun c => c.2.plain (c.1.ledBy (leadOf (before ++ calls)) c.2)
  | [], _, _, _, _ => rfl
  | (r, q) :: calls, before, s, h, hs => by
    obtain ⟨rfl, hc⟩ := h (r, q) List.mem_cons_self
    obtain ⟨hput, hs'⟩ := Question.put_led hv hc hs q
    rw [← leadOf_concat] at hs'
    have ih := answers_led hv calls (before ++ [(r, q)]) (q.put r s).2
      (fun c hc => h c (List.mem_cons_of_mem _ hc)) hs'
    rw [List.append_assoc, List.singleton_append] at ih
    simp only [answers, hput, ih, List.map_cons, ledBy_leadOf]

/-! ## When the cache does not show -/

/-- The listed files on which an answer depends: all of them for the changed files, and the file
itself for a line that the diff adds to it. -/
def Question.DependsOn (q : Question) (r : Resolver) (path : String) : Prop :=
  path ≠ "" ∧ ∃ scope, q.looksAt? r = some scope ∧
    (∃ raw ∈ r.vcs.listed scope, normalizePath raw = path) ∧
    match q with
    | .inScope file line => ∃ rel, r.relativePath? file = some rel ∧ normalizePath rel = path ∧
        (r.plainAdded scope rel).contains line = true
    | _ => True

theorem Resolver.plainInScope_under_iff {r : Resolver} {scope : DiffScope} {file rel : String}
    (hscope : r.selector.diffScope? = some scope) (hfile : r.relativePath? file = some rel)
    (line : Nat) (ρ ρ' : Option String) :
    (r.under ρ).plainInScope file line = (r.under ρ').plainInScope file line ↔
      ((r.plainAdded scope rel).contains line = true →
        (∃ raw ∈ r.vcs.listed scope, normalizePath raw = normalizePath rel) → normalizePath rel ≠ "" →
        (ChangedFiles.LiesUnder (normalizePath rel) ρ ↔
          ChangedFiles.LiesUnder (normalizePath rel) ρ')) := by
  simp only [plainInScope, under_selector, under_relativePath?, under_plainChanged,
    under_plainAdded, hscope, hfile]
  rw [Bool.eq_iff_iff, Bool.and_eq_true, Bool.and_eq_true, ChangedFiles.contains_ofPaths,
    ChangedFiles.contains_ofPaths, and_congr_left_iff, and_congr_right_iff, and_congr_right_iff]

/-- Two source roots lead to the same answer just if they do not differ on a file that it depends
on. -/
theorem Question.plain_under_iff (q : Question) (r : Resolver) (ρ ρ' : Option String) :
    q.plain (r.under ρ) = q.plain (r.under ρ') ↔ ∀ path, q.DependsOn r path →
      (ChangedFiles.LiesUnder path ρ ↔ ChangedFiles.LiesUnder path ρ') := by
  cases hscope : r.selector.diffScope? with
  | none =>
    have hq : q.looksAt? r = none := by cases q <;> simp [looksAt?, hscope]
    constructor
    · rintro - path ⟨-, scope, hlook, -⟩
      rw [hq] at hlook
      cases hlook
    · intro _
      cases q <;> simp [plain, Resolver.plainInScope, hscope]
  | some scope =>
    cases q with
    | changedFiles =>
      simp only [plain, Resolver.under_selector, Resolver.under_plainChanged, hscope,
        Answer.files.injEq, ChangedFiles.ofPaths_eq_iff]
      constructor
      · rintro h path ⟨hne, scope', hlook, ⟨raw, hraw, rfl⟩, -⟩
        obtain rfl : scope = scope' := Option.some.inj (hscope.symm.trans hlook)
        exact h raw hraw hne
      · intro h raw hraw hne
        exact h _ ⟨hne, scope, hscope, ⟨raw, hraw, rfl⟩, trivial⟩
    | addedLines file =>
      constructor
      · rintro - path ⟨-, scope', hlook, -⟩
        cases hlook
      · intro _
        rfl
    | inScope file line =>
      cases hfile : r.relativePath? file with
      | none =>
        constructor
        · rintro - path ⟨-, scope', -, -, rel, hrel, -⟩
          rw [hfile] at hrel
          cases hrel
        · intro _
          simp [plain, Resolver.plainInScope, hscope, hfile]
      | some rel =>
        have hlook : (Question.inScope file line).looksAt? r = some scope := by
          simp [looksAt?, hfile, hscope]
        rw [plain, plain, Answer.decision.injEq, Resolver.plainInScope_under_iff hscope hfile]
        constructor
        · rintro h path ⟨hne, scope', hlook', hraw, rel', hrel, rfl, hline⟩
          obtain rfl : rel = rel' := Option.some.inj (hfile.symm.trans hrel)
          obtain rfl : scope = scope' := Option.some.inj (hlook.symm.trans hlook')
          exact h hline hraw hne
        · intro h hline hraw hne
          exact h _ ⟨hne, scope, hlook, hraw, rel, hfile, rfl, hline⟩

theorem answers_forgetful {vcs : VersionControl} (hv : vcs.Fixed)
    {calls : List (Resolver × Question)} (f : Resolver × Question → Resolver)
    (hf : ∀ c ∈ calls, (f c).vcs = vcs) :
    (answers (calls.map fun c => ((f c).forgetful, c.2)) .fresh).1 =
      calls.map fun c => c.2.plain (f c) := by
  rw [answers_plain _ _ (List.forall_mem_map.2 fun c hc => ⟨(hf c hc).symm ▸ hv, rfl⟩),
    List.map_map]
  rfl

/-- **A shared cache shows by its first source root.** Calls through resolvers of any selectors and
source roots, for one backend and with one new cache, are answered as resolvers without memory
answer under the source root of the first call that looks at the changed files of the same diff. So
the answers are those under the resolvers' own source roots just if no call depends on a listed file
that lies under one of the two source roots and not under the other. -/
theorem answers_own_roots_iff {vcs : VersionControl} (hv : vcs.Fixed)
    (calls : List (Resolver × Question))
    (hcalls : ∀ c ∈ calls, c.1.vcs = vcs ∧ c.1.cached = true) :
    let first (c : Resolver × Question) := c.1.ledBy (leadOf calls) c.2
    (answers calls .fresh).1 =
        (answers (calls.map fun c => ((first c).forgetful, c.2)) .fresh).1 ∧
      ((answers calls .fresh).1 =
          (answers (calls.map fun c => (c.1.forgetful, c.2)) .fresh).1 ↔
        ∀ c ∈ calls, ∀ path, c.2.DependsOn c.1 path →
          (ChangedFiles.LiesUnder path (first c).sourceRoot ↔
            ChangedFiles.LiesUnder path c.1.sourceRoot)) := by
  intro first
  have hfirst : ∀ c, first c = c.1.under (first c).sourceRoot := by
    intro c
    simp only [first, Resolver.ledBy]
    split <;> rfl
  have hled := answers_led hv calls [] .fresh hcalls (Led.fresh vcs)
  have hshared : (answers calls .fresh).1 = calls.map fun c => c.2.plain (first c) := hled
  have hown := answers_forgetful hv Prod.fst fun c hc => (hcalls c hc).1
  refine ⟨?_, ?_⟩
  · rw [hshared, answers_forgetful hv first fun c hc => ?_]
    rw [hfirst c]
    exact (hcalls c hc).1
  · rw [hshared, hown, List.map_inj_left]
    refine forall₂_congr fun c _ => ?_
    rw [← Question.plain_under_iff, ← hfirst c]
    rfl

/-- A resolver that is not restricted sets the source root for one of `src`, and this does not show
where all files that are listed lie under `src`. -/
theorem answers_own_roots_iff_nested :
    let vcs := (RecordedDiff.empty.withFile .workingTree "src/a.ts" [3]).backend
    let r (sourceRoot : Option String) : Resolver :=
      .make .new vcs ⟨.directory [], "/", Parser.silent⟩ "/repo" sourceRoot true
    let calls : List (Resolver × Question) :=
      [(r none, .changedFiles), (r (some "src"), .inScope "src/a.ts" 3)]
    vcs.Fixed ∧ (∀ c ∈ calls, c.1.vcs = vcs ∧ c.1.cached = true) ∧
      (answers calls .fresh).1 = (answers (calls.map fun c => (c.1.forgetful, c.2)) .fresh).1 := by
  intro vcs r calls
  have hv : vcs.Fixed := ⟨fun _ _ _ => rfl, fun _ _ _ _ => rfl⟩
  have hcalls : ∀ c ∈ calls, c.1.vcs = vcs ∧ c.1.cached = true := by simp [calls, r, Resolver.make]
  have hroots : ∀ c ∈ calls, (c.1.ledBy (leadOf calls) c.2).sourceRoot = none ∧
      c.1.sourceRoot ∈ [none, some "src"] := by decide +kernel
  have hunder : ∀ ρ ∈ [none, some "src"], ∀ scope, ∀ raw ∈ vcs.listed scope,
      ChangedFiles.LiesUnder (normalizePath raw) ρ := by
    intro ρ hρ scope raw hraw
    have hpath : normalizePath raw = "src/a.ts" := by
      cases scope <;> revert raw <;> decide +kernel
    rintro root rfl
    obtain rfl : root = "src" := by simpa using hρ
    rw [hpath]
    decide +kernel
  refine ⟨hv, hcalls, (answers_own_roots_iff hv calls hcalls).2.2 fun c hc path hpath => ?_⟩
  obtain ⟨-, scope, -, ⟨raw, hraw, rfl⟩, -⟩ := hpath
  rw [(hcalls c hc).1] at hraw
  obtain ⟨hnone, hown⟩ := hroots c hc
  exact iff_of_true (hunder _ (hnone ▸ List.mem_cons_self) scope raw hraw)
    (hunder _ hown scope raw hraw)

/-- A resolver for `src` and one for `lib` are asked in turn. -/
def callsInTurn (vcs : VersionControl) (cached : Bool) : List (Resolver × Question) :=
  let r (sourceRoot : String) : Resolver :=
    .make .new vcs ⟨.directory [], "/", Parser.silent⟩ "/repo" (some sourceRoot) cached
  [(r "src", .inScope "lib/b.ts" 1), (r "lib", .inScope "lib/b.ts" 1)]

/-- The resolver for `lib` does not find a file of `lib` after the resolver for `src` has been
asked. -/
theorem answers_leaked_root :
    let vcs := (RecordedDiff.empty.withFile .workingTree "lib/b.ts" [1]).backend
    vcs.Fixed ∧
      (answers (callsInTurn vcs true) .fresh).1 = [.decision false, .decision false] ∧
      (answers (callsInTurn vcs false) .fresh).1 = [.decision false, .decision true] := by
  intro vcs
  refine ⟨⟨fun _ _ _ => rfl, fun _ _ _ _ => rfl⟩, ?_, ?_⟩
  · decide +kernel
  · decide +kernel

end DocScope
