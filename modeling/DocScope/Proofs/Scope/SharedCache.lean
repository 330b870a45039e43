import DocScope.Proofs.Scope.Remembered
import Mathlib.Data.Finset.Card

/-!
# Resolvers that share a cache

Any number of calls, through resolvers of any selectors for one repository and one source root,
share one session. `answers` makes the calls one after the other.

* `Question.put_spec`, `Question.put_plain`: one call, with and without memory.
* `answers_spec`, `answers_plain`: a sequence of calls, by induction from the single call.
* `answers_shared_cache`: with memory the answers are the same as without, no question reaches the
  backend twice, calls under `full` ask nothing, and the files whose added lines are known are the
  ones that the calls without memory ask about.
-/

namespace DocScope

/-- What a resolver can be asked. -/
inductive Question where
  | inScope (file : String) (line : Nat)
  | changedFiles
  | addedLines (file : String)
deriving DecidableEq, Repr

/-- What a resolver answers. -/
inductive Answer where
  | decision (inScope : Bool)
  | files (set : ChangedFiles)
  | lines (set : AddedLines)
deriving DecidableEq, Repr

namespace Question

/-- Puts a question to a resolver. -/
def put (q : Question) (r : Resolver) (s : Session) : Answer × Session :=
  match q with
  | .inScope file line => Prod.map .decision id (r.inScope file line s)
  | .changedFiles => Prod.map .files id (r.changedFiles s)
  | .addedLines file => Prod.map .lines id (r.addedLines file s)

/-- The answer that the plain sets lead to. -/
def plain (q : Question) (r : Resolver) : Answer :=
  match q with
  | .inScope file line => .decision (r.plainInScope file line)
  | .changedFiles =>
    match r.selector.diffScope? with
    | some scope => .files (r.plainChanged scope)
    | none => .files .empty
  | .addedLines file =>
    match r.selector.diffScope?, r.relativePath? file with
    | some scope, some path => .lines (r.plainAdded scope path)
    | _, _ => .lines .empty

/-- The questions to the backend on which the answer depends. -/
def queries (q : Question) (r : Resolver) : List Query :=
  match q with
  | .inScope file _ => r.scopeQueries file
  | .changedFiles =>
    match r.selector.diffScope? with
    | some scope => [.changedFiles scope]
    | none => []
  | .addedLines file =>
    match r.selector.diffScope?, r.relativePath? file with
    | some scope, some path => [.addedLines scope path]
    | _, _ => []

section
variable {r : Resolver} {s : Session} (hv : r.vcs.Fixed)
include hv

/-- A call without memory gives the plain answer and asks for everything it depends on. -/
theorem put_plain (hc : r.cached = false) (q : Question) :
    q.put r s = (q.plain r, { s with asked := (q.queries r).reverse ++ s.asked }) := by
  cases q with
  | inScope file line => simp [put, plain, queries, Resolver.inScope_plain hv hc]
  | changedFiles =>
    simp only [put, plain, queries, Resolver.changedFiles]
    cases r.selector.diffScope? with
    | none => rfl
    | some scope => simp [Resolver.changedIn_plain hv hc, Session.ask]
  | addedLines file =>
    simp only [put, plain, queries, Resolver.addedLines]
    cases r.selector.diffScope? with
    | none => rfl
    | some scope =>
      cases r.relativePath? file with
      | none => rfl
      | some path => simp [Resolver.addedIn_plain hv hc, Session.ask]

/-- A call with memory gives the plain answer and asks for what is not known yet. -/
theorem put_spec (hc : r.cached = true) (hs : r.Remembers s) (q : Question) :
    (q.put r s).1 = q.plain r ∧ r.Extends s (q.put r s).2 (q.queries r) := by
  cases q with
  | inScope file line =>
    obtain ⟨h, e⟩ := Resolver.inScope_spec hv hc hs file line
    exact ⟨congrArg Answer.decision h, e⟩
  | changedFiles =>
    simp only [put, plain, queries, Resolver.changedFiles]
    cases r.selector.diffScope? with
    | none => exact ⟨rfl, .refl hs⟩
    | some scope =>
      obtain ⟨h, e⟩ := Resolver.changedIn_spec hv hc hs scope
      exact ⟨congrArg Answer.files h, e⟩
  | addedLines file =>
    simp only [put, plain, queries, Resolver.addedLines]
    cases r.selector.diffScope? with
    | none => exact ⟨rfl, .refl hs⟩
    | some scope =>
      cases r.relativePath? file with
      | none => exact ⟨rfl, .refl hs⟩
      | some path =>
        obtain ⟨h, e⟩ := Resolver.addedIn_spec hv hc hs scope path
        exact ⟨congrArg Answer.lines h, e⟩

end

theorem put_full {r : Resolver} (hr : r.selector = .full) (q : Question) (s : Session) :
    (q.put r s).2 = s := by
  cases q <;> simp [put, Resolver.inScope, Resolver.changedFiles, Resolver.addedLines, hr,
    Selector.diffScope?]

end Question

/-- Puts questions to resolvers, one after the other, in one session. -/
def answers : List (Resolver × Question) → Session → List Answer × Session
  | [], s => ([], s)
  | (r, q) :: calls, s =>
    let (a, s) := q.put r s
    let (as, s) := answers calls s
    (a :: as, s)

/-- All questions to the backend on which the answers of some calls depend. -/
def callQueries (calls : List (Resolver × Question)) : List Query :=
  calls.flatMap fun c => c.2.queries c.1

theorem answers_plain : ∀ (calls : List (Resolver × Question)) (s : Session),
    (∀ c ∈ calls, c.1.vcs.Fixed ∧ c.1.cached = false) →
    answers calls s = (calls.map fun c => c.2.plain c.1,
      { s with asked := (callQueries calls).reverse ++ s.asked })
  | [], _, _ => rfl
  | (r, q) :: calls, s, h => by
    obtain ⟨hv, hc⟩ := h (r, q) List.mem_cons_self
    have ih := fun s => answers_plain calls s fun c hc => h c (List.mem_cons_of_mem _ hc)
    simp only [answers, Question.put_plain hv hc, ih]
    simp [callQueries]

/-- The run of `put_spec`: resolvers with memory that agree with `b` on the backend and the source
root give plain answers, and the session remembers all along. -/
theorem answers_spec {b : Resolver} (hv : b.vcs.Fixed) :
    ∀ (calls : List (Resolver × Question)) (s : Session),
      (∀ c ∈ calls, c.1.cached = true ∧ c.1.vcs = b.vcs ∧ c.1.sourceRoot = b.sourceRoot) →
      b.Remembers s →
      (answers calls s).1 = (calls.map fun c => c.2.plain c.1) ∧
        b.Extends s (answers calls s).2 (callQueries calls)
  | [], s, _, hs => ⟨rfl, .refl hs⟩
  | (r, q) :: calls, s, h, hs => by
    obtain ⟨hc, hvcs, hroot⟩ := h (r, q) List.mem_cons_self
    obtain ⟨h1, e1⟩ := Question.put_spec (hvcs ▸ hv) hc (hs.of_same hvcs hroot) q
    have e1' : b.Extends s (q.put r s).2 (q.queries r) :=
      ⟨e1.remembers.of_same hvcs.symm hroot.symm, e1.mem_asked⟩
    obtain ⟨h2, e2⟩ := answers_spec hv calls (q.put r s).2
      (fun c hc => h c (List.mem_cons_of_mem _ hc)) e1'.remembers
    exact ⟨by simp only [answers, h1, h2, List.map_cons], e1'.trans e2⟩

/-- Calls under any selectors for one repository and one source root, all with memory or all
without. -/
def callsThrough (vcs : VersionControl) (world : World) (root : String)
    (sourceRoot : Option String) (cached : Bool) (calls : List (Selector × Question)) :
    List (Resolver × Question) :=
  calls.map fun c => (.make c.1 vcs world root sourceRoot cached, c.2)

theorem plain_make (c : Selector × Question) (vcs : VersionControl) (world : World) (root : String)
    (sourceRoot : Option String) (b b' : Bool) :
    c.2.plain (.make c.1 vcs world root sourceRoot b) =
        c.2.plain (.make c.1 vcs world root sourceRoot b') ∧
      c.2.queries (.make c.1 vcs world root sourceRoot b) =
        c.2.queries (.make c.1 vcs world root sourceRoot b') := by
  obtain ⟨selector, q⟩ := c
  cases q <;> exact ⟨rfl, rfl⟩

/-- **A shared cache shows only in the number of questions.** Whatever calls are made in a new
session: the answers are those of the resolvers without memory; every question reaches the backend
at most once, answered or failed; a call under `full` leaves the session as it is; and the files
whose added lines are known are the distinct ones whose added lines the calls needed, which are the
ones that the resolvers without memory ask about. -/
theorem answers_shared_cache {vcs : VersionControl} (hv : vcs.Fixed) (world : World)
    (root : String) (sourceRoot : Option String) (calls : List (Selector × Question)) :
    let remembered := answers (callsThrough vcs world root sourceRoot true calls) .fresh
    let plain := answers (callsThrough vcs world root sourceRoot false calls) .fresh
    remembered.1 = plain.1 ∧
      (∀ query, remembered.2.asked.count query ≤ 1) ∧
      (∀ (q : Question) (s : Session),
        (q.put (.make .full vcs world root sourceRoot true) s).2 = s) ∧
      remembered.2.cache.cachedFiles = (plain.2.asked.filterMap Query.addedKey?).toFinset.card := by
  intro remembered plain
  obtain ⟨h1, e1⟩ := answers_spec (b := .make .full vcs world root sourceRoot true) hv
    (callsThrough vcs world root sourceRoot true calls) .fresh
    (List.forall_mem_map.2 fun _ _ => ⟨rfl, rfl, rfl⟩) (.fresh _)
  have hp : plain = _ := answers_plain (callsThrough vcs world root sourceRoot false calls) .fresh
    (List.forall_mem_map.2 fun _ _ => ⟨hv, rfl⟩)
  have hq : callQueries (callsThrough vcs world root sourceRoot true calls) =
      callQueries (callsThrough vcs world root sourceRoot false calls) := by
    simp only [callQueries, callsThrough, List.flatMap_map,
      (plain_make _ vcs world root sourceRoot true false).2]
  refine ⟨?_, fun query => List.nodup_iff_count.1 e1.remembers.once query,
    fun q s => Question.put_full rfl q s, ?_⟩
  · rw [h1, hp]
    simp only [callsThrough, List.map_map, Function.comp_def,
      (plain_make _ vcs world root sourceRoot true false).1]
  · -- both sides count the same distinct keys: the log with memory has each of them once
    rw [e1.remembers.cachedFiles_eq, ← List.toFinset_card_of_nodup
      (nodup_addedKeys e1.remembers.once)]
    congr 1
    ext k
    rw [List.mem_toFinset, List.mem_toFinset, mem_addedKeys, mem_addedKeys, e1.mem_asked, hq, hp]
    simp [Session.fresh]

/-- A backend without an index: its failure is remembered like an answer, and the added lines of one
file are known for both diffs. -/
theorem answers_shared_cache_without_index :
    let vcs : VersionControl :=
      ⟨fun _ scope => if scope = .index then .error .rangeTooLarge else .ok ["src/a.ts"],
        fun _ _ _ => .ok [3, 4]⟩
    let calls : List (Selector × Question) :=
      [(.new, .inScope "src/a.ts" 4), (.staged, .changedFiles), (.full, .inScope "src/a.ts" 9),
        (.new, .inScope "src/a.ts" 9), (.staged, .inScope "src/a.ts" 4),
        (.staged, .addedLines "src/a.ts")]
    vcs.Fixed ∧
      (answers (callsThrough vcs ⟨.directory [], "/", Parser.silent⟩ "/repo" none true calls)
        .fresh).2.cache.cachedFiles = 2 := by
  intro vcs calls
  have hv : vcs.Fixed := ⟨fun _ _ _ => rfl, fun _ _ _ _ => rfl⟩
  exact ⟨hv, (answers_shared_cache hv _ _ _ calls).2.2.2.trans (by decide +kernel)⟩

end DocScope
