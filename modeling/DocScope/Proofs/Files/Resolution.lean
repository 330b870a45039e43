import DocScope.Proofs.Files.Names

/-!
# Where paths lead

A path is resolved piece by piece (`World.step`); what it leads to is a place of the tree, given by
proper names (`World.IsPlace`).

* `step_cases`, `IsPlace.step`, `IsPlace.steps`: what one piece does, and that places lead to places;
* `resolve_isPlace`, `resolve_pathOf`: so every path that leads somewhere leads to a place, and the
  canonical path of a place leads there;
* `resolve_join`: a path that is joined to another one is resolved from where that one leads;
* `steps_eq_append`, `eq_of_resolve_pathOf`: without `..` the names of the pieces are added, so a
  canonical path leads to the names it is made of or nowhere;
* `fileName?_of_file`: a path that leads to a file ends with the name of the file.
-/

namespace DocScope

theorem Except.bind_eq_ok {ε α β : Type} {x : Except ε α} {f : α → Except ε β} {b : β} :
    x >>= f = .ok b ↔ ∃ a, x = .ok a ∧ f a = .ok b := by
  cases x with
  | error e => simp [bind, Except.bind]
  | ok a => simp [bind, Except.bind]

theorem Except.map_eq_ok {ε α β : Type} {x : Except ε α} {f : α → β} {b : β} :
    x.map f = .ok b ↔ ∃ a, x = .ok a ∧ f a = b := by
  cases x with
  | error e => simp [Except.map]
  | ok a => simp [Except.map]

theorem Entry.find?_append : ∀ (a b : List String) (e : Entry),
    e.find? (a ++ b) = (e.find? a).bind (find? b)
  | [], _, _ => rfl
  | n :: a, b, e => by
    simp only [List.cons_append, find?]
    cases e.child? n with
    | none => rfl
    | some c => exact find?_append a b c

namespace World

/-- Proper names that lead from the root directory to an entry. -/
structure IsPlace (w : World) (names : List String) : Prop where
  proper : ∀ n ∈ names, ProperName n
  found : (w.root.find? names).isSome
  root : w.root.isDirectory = true

variable {w : World}

/-! ## One step -/

theorem step_cases {names names' : List String} {piece : List Char}
    (h : w.step names piece = .ok names') :
    ∃ es, w.root.find? names = some (.directory es) ∧
      ((piece = [] ∨ piece = ['.']) ∧ names' = names ∨
        piece = ['.', '.'] ∧ names' = names.dropLast ∨
        (piece ≠ [] ∧ piece ≠ ['.'] ∧ piece ≠ ['.', '.']) ∧
          (es.lookup (.ofList piece)).isSome ∧ names' = names ++ [.ofList piece]) := by
  unfold step at h
  split at h
  · cases h
  · cases h
  · rename_i es hes
    refine ⟨es, hes, ?_⟩
    by_cases h₁ : piece = [] ∨ piece = ['.']
    · rw [if_pos (by simpa using h₁)] at h
      cases h
      exact .inl ⟨h₁, rfl⟩
    · rw [if_neg (by simpa using h₁)] at h
      by_cases h₂ : piece = ['.', '.']
      · rw [if_pos h₂] at h
        cases h
        exact .inr (.inl ⟨h₂, rfl⟩)
      · rw [if_neg h₂] at h
        cases hl : es.lookup (.ofList piece) with
        | none => simp [hl] at h
        | some e =>
          simp only [hl, Except.ok.injEq] at h
          rw [not_or] at h₁
          exact .inr (.inr ⟨⟨h₁.1, h₁.2, h₂⟩, by simp, h.symm⟩)

theorem step_of_blank {names : List String} {es : List (String × Entry)} {piece : List Char}
    (h : w.root.find? names = some (.directory es)) (hp : piece = [] ∨ piece = ['.']) :
    w.step names piece = .ok names := by
  simp only [step, h]
  rw [if_pos (by simpa using hp)]

theorem step_of_name {names : List String} {es : List (String × Entry)} {n : String}
    (h : w.root.find? names = some (.directory es)) (hn : ProperName n)
    (hl : (es.lookup n).isSome) : w.step names n.toList = .ok (names ++ [n]) := by
  obtain ⟨e, he⟩ := Option.isSome_iff_exists.1 hl
  simp [step, h, hn.ne_nil, hn.ne_here, hn.ne_up, he]

namespace IsPlace

theorem left {a b : List String} (h : w.IsPlace (a ++ b)) : w.IsPlace a := by
  refine ⟨fun n hn => h.proper n (List.mem_append_left b hn), ?_, h.root⟩
  have hf := h.found
  rw [Entry.find?_append] at hf
  exact Option.isSome_of_isSome_bind hf

theorem directory {a b : List String} {n : String} (h : w.IsPlace (a ++ n :: b)) :
    ∃ es, w.root.find? a = some (.directory es) ∧ (es.lookup n).isSome := by
  have hf := h.found
  rw [Entry.find?_append] at hf
  cases ha : w.root.find? a with
  | none => simp [ha] at hf
  | some e =>
    rw [ha, Option.bind_some, Entry.find?] at hf
    have hc : (e.child? n).isSome := Option.isSome_of_isSome_bind hf
    cases e with
    | file c => simp [Entry.child?] at hc
    | directory es => exact ⟨es, rfl, hc⟩

theorem snoc {names : List String} {es : List (String × Entry)} {n : String}
    (h : w.IsPlace names) (hes : w.root.find? names = some (.directory es)) (hn : ProperName n)
    (hl : (es.lookup n).isSome) : w.IsPlace (names ++ [n]) := by
  refine ⟨fun m hm => ?_, ?_, h.root⟩
  · rcases List.mem_append.1 hm with hm | hm
    · exact h.proper m hm
    · rwa [List.mem_singleton.1 hm]
  · obtain ⟨e, he⟩ := Option.isSome_iff_exists.1 hl
    simp [Entry.find?_append, hes, Entry.find?, Entry.child?, he]

theorem step {names names' : List String} {piece : List Char} (h : w.IsPlace names)
    (hp : '/' ∉ piece) (hs : w.step names piece = .ok names') : w.IsPlace names' := by
  obtain ⟨es, hes, ⟨-, rfl⟩ | ⟨-, rfl⟩ | ⟨⟨h₁, h₂, h₃⟩, hl, rfl⟩⟩ := step_cases hs
  · exact h
  · rcases List.eq_nil_or_concat names with rfl | ⟨a, n, rfl⟩
    · exact h
    · rw [List.concat_eq_append] at h ⊢
      rw [List.dropLast_concat]
      exact h.left
  · refine h.snoc hes ⟨?_, ?_, ?_, ?_⟩ hl <;> simpa using ‹_›

theorem steps {names names' : List String} {ps : List (List Char)} (h : w.IsPlace names)
    (hps : ∀ p ∈ ps, '/' ∉ p) (hs : ps.foldlM w.step names = .ok names') : w.IsPlace names' := by
  induction ps generalizing names with
  | nil =>
    cases hs
    exact h
  | cons p ps ih =>
    rw [List.foldlM_cons] at hs
    obtain ⟨mid, hmid, hs⟩ := Except.bind_eq_ok.1 hs
    exact ih (h.step (hps p List.mem_cons_self) hmid)
      (fun q hq => hps q (List.mem_cons_of_mem _ hq)) hs

theorem steps_names {a b : List String} (h : w.IsPlace (a ++ b)) :
    (b.map String.toList).foldlM w.step a = .ok (a ++ b) := by
  induction b generalizing a with
  | nil => rw [List.append_nil]; rfl
  | cons n b ih =>
    obtain ⟨es, hes, hl⟩ := h.directory
    have hn : ProperName n := h.proper n (by simp)
    rw [List.map_cons, List.foldlM_cons, step_of_name hes hn hl]
    rw [List.append_cons] at h
    rw [List.append_cons a n b]
    exact ih h

end IsPlace

/-! ## Whole paths -/

theorem resolve_eq {path : String} (h : path.toList ≠ []) :
    w.resolve path = ((Path.join w.cwd.toList path.toList).splitOn '/').foldlM w.step [] :=
  if_neg h

theorem ne_nil_of_resolve {path : String} {names : List String} (h : w.resolve path = .ok names) :
    path.toList ≠ [] := by
  intro hp
  rw [resolve, if_pos hp] at h
  cases h

theorem resolve_isPlace {path : String} {names : List String} (h : w.resolve path = .ok names) :
    w.IsPlace names := by
  rw [resolve_eq (ne_nil_of_resolve h)] at h
  have hps := fun p => Text.not_mem_of_mem_splitOn (a := '/')
    (s := Path.join w.cwd.toList path.toList) (p := p)
  obtain ⟨p, ps, heq⟩ := List.exists_cons_of_ne_nil
    (List.splitOn_ne_nil '/' (Path.join w.cwd.toList path.toList))
  rw [heq] at h hps
  have hfirst := h
  rw [List.foldlM_cons] at hfirst
  obtain ⟨mid, hmid, -⟩ := Except.bind_eq_ok.1 hfirst
  -- the first step was made in the root, which is a directory therefore
  obtain ⟨es, hes, -⟩ := step_cases hmid
  have hroot : w.root = .directory es := by simpa [Entry.find?] using hes
  exact IsPlace.steps ⟨by simp, rfl, by rw [hroot]; rfl⟩ hps h

/-- **The canonical path of a place leads there.** -/
theorem resolve_pathOf {names : List String} (h : w.IsPlace names) :
    w.resolve (pathOf names) = .ok names := by
  have hne : (pathOf names).toList ≠ [] := by simp [toList_pathOf]
  obtain ⟨es, hes⟩ : ∃ es, w.root = .directory es := by
    have hroot := h.root
    cases hr : w.root with
    | file c => simp [hr, Entry.isDirectory] at hroot
    | directory es => exact ⟨es, rfl⟩
  have hfirst : w.step [] [] = .ok [] := step_of_blank (by rw [Entry.find?, hes]) (.inl rfl)
  rw [resolve_eq hne, Path.join, isAbsolute_pathOf, if_pos rfl]
  by_cases hn : names = []
  · subst hn
    show [[], []].foldlM w.step [] = _
    rw [List.foldlM_cons, hfirst]
    exact congrArg (· >>= fun x => [].foldlM w.step x) hfirst
  · rw [splitOn_pathOf h.proper hn, List.foldlM_cons, hfirst]
    exact IsPlace.steps_names (a := []) h

theorem canonical_eq_ok {path q : String} :
    w.canonical path = .ok q ↔ ∃ names, w.resolve path = .ok names ∧ q = pathOf names := by
  rw [canonical, Except.map_eq_ok]
  exact exists_congr fun names => and_congr_right fun _ => eq_comm

theorem canonical_pathOf {names : List String} (h : w.IsPlace names) :
    w.canonical (pathOf names) = .ok (pathOf names) :=
  canonical_eq_ok.2 ⟨names, resolve_pathOf h, rfl⟩

/-! ## Joined paths -/

theorem steps_blank_bind (names : List String) {ps : List (List Char)} (hps : ps ≠ []) :
    (w.step names [] >>= fun names => ps.foldlM w.step names) = ps.foldlM w.step names := by
  obtain ⟨p, ps, rfl⟩ := List.exists_cons_of_ne_nil hps
  rw [List.foldlM_cons]
  cases hf : w.root.find? names with
  | none => simp [step, hf, bind, Except.bind]
  | some e =>
    cases e with
    | file c => simp [step, hf, bind, Except.bind]
    | directory es => rw [step_of_blank hf (.inl rfl)]; rfl

/-- **A joined path is resolved from where its base leads.** -/
theorem resolve_join {root : String} {p : List Char} (hr : root.toList ≠ [])
    (hp : Path.isAbsolute p = false) :
    w.resolve (.ofList (Path.join root.toList p)) =
      (w.resolve root >>= fun names => (p.splitOn '/').foldlM w.step names) := by
  have hne : Path.join root.toList p ≠ [] := by
    rw [Path.join_eq hr hp]
    simp [Path.asDirectory_ne_nil hr]
  rw [resolve_eq (by simpa using hne), resolve_eq hr, String.toList_ofList, Path.join_join hr hp,
    Path.join_eq (Path.join_ne_nil hr) hp]
  obtain ⟨ys, hy, hbase⟩ := Path.splitOn_asDirectory_append (Path.join w.cwd.toList root.toList) p
  rw [hy, List.foldlM_append]
  rcases hbase with hbase | hbase
  · rw [hbase]
  · rw [hbase, List.foldlM_append, bind_assoc]
    refine congrArg _ (funext fun names => ?_)
    rw [← steps_blank_bind names (List.splitOn_ne_nil '/' p)]
    simp

/-! ## Paths without `..` -/

theorem steps_eq_append {names names' : List String} {ps : List (List Char)}
    (hup : ['.', '.'] ∉ ps) (h : ps.foldlM w.step names = .ok names') :
    names' = names ++ Path.namesIn ps := by
  induction ps generalizing names with
  | nil =>
    cases h
    simp [Path.namesIn]
  | cons p ps ih =>
    rw [List.foldlM_cons] at h
    obtain ⟨mid, hmid, h⟩ := Except.bind_eq_ok.1 h
    rw [ih (fun hm => hup (List.mem_cons_of_mem _ hm)) h]
    obtain ⟨es, -, ⟨hp, rfl⟩ | ⟨rfl, -⟩ | ⟨⟨h₁, h₂, -⟩, -, rfl⟩⟩ := step_cases hmid
    · rw [Path.namesIn_cons_blank hp]
    · exact absurd List.mem_cons_self hup
    · rw [Path.namesIn_cons_name h₁ h₂, List.append_assoc, List.singleton_append]

/-- A canonical path leads nowhere else. -/
theorem eq_of_resolve_pathOf {names names' : List String} (hn : ∀ n ∈ names, ProperName n)
    (h : w.resolve (pathOf names) = .ok names') : names' = names := by
  obtain ⟨ps, hsplit, hup, hnames⟩ : ∃ ps, (pathOf names).toList.splitOn '/' = [] :: ps ∧
      ['.', '.'] ∉ ps ∧ Path.namesIn ps = names := by
    by_cases hne : names = []
    · subst hne
      exact ⟨[[]], by decide, by decide, by decide⟩
    · refine ⟨names.map String.toList, splitOn_pathOf hn hne, fun hm => ?_, Path.namesIn_names hn⟩
      obtain ⟨n, hmem, heq⟩ := List.mem_map.1 hm
      exact (hn n hmem).ne_up heq
  rw [resolve_eq (ne_nil_of_resolve h), Path.join, isAbsolute_pathOf, if_pos rfl, hsplit] at h
  rw [steps_eq_append (by simpa using hup) h, Path.namesIn_cons_blank (.inl rfl), hnames]
  rfl

/-! ## Paths of files -/

theorem isFile_iff {path : String} :
    w.isFile path = true ↔
      ∃ names content, w.resolve path = .ok names ∧ w.root.find? names = some (.file content) := by
  unfold isFile lookup?
  cases w.resolve path with
  | error e => simp
  | ok names =>
    cases hf : w.root.find? names with
    | none => simp [hf]
    | some e => cases e <;> simp [hf]

/-- The last piece of a path that leads to a file is the name of the file. -/
theorem steps_to_file {names names' : List String} {ps : List (List Char)} {c : List UInt8}
    (h : ps.foldlM w.step names = .ok names') (hps : ps ≠ [])
    (hplace : ∀ p ∈ ps, '/' ∉ p) (hnames : w.IsPlace names)
    (hf : w.root.find? names' = some (.file c)) :
    ∃ qs n, ps = qs ++ [n.toList] ∧ ProperName n ∧ names'.getLast? = some n := by
  obtain ⟨qs, p, rfl⟩ := (List.eq_nil_or_concat ps).resolve_left hps
  rw [List.concat_eq_append, List.foldlM_append] at h
  obtain ⟨mid, hmid, hstep⟩ := Except.bind_eq_ok.1 h
  have hplace' : ∀ q ∈ qs ++ [p], '/' ∉ q := by simpa using hplace
  have hmidPlace : w.IsPlace mid :=
    hnames.steps (fun q hq => hplace' q (List.mem_append_left _ hq)) hmid
  rw [List.foldlM_cons] at hstep
  obtain ⟨last, hlast, hnil⟩ := Except.bind_eq_ok.1 hstep
  cases hnil
  obtain ⟨es, hes, ⟨-, rfl⟩ | ⟨-, rfl⟩ | ⟨⟨h₁, h₂, h₃⟩, -, rfl⟩⟩ := step_cases hlast
  · rw [hes] at hf
    cases hf
  · -- one step up from a directory there is a directory again
    rcases List.eq_nil_or_concat mid with rfl | ⟨a, n, rfl⟩
    · rw [List.dropLast_nil, hes] at hf
      cases hf
    · rw [List.concat_eq_append] at hmidPlace hf
      rw [List.dropLast_concat] at hf
      obtain ⟨es', hes', -⟩ := hmidPlace.directory
      rw [hes'] at hf
      cases hf
  · refine ⟨qs, .ofList p, by simp, ⟨?_, ?_, ?_, ?_⟩, by simp⟩
    · simpa using hplace' p (by simp)
    · simpa using h₁
    · simpa using h₂
    · simpa using h₃

/-- **A path that leads to a file ends with its name.** -/
theorem fileName?_of_file {path : String} {names : List String} {c : List UInt8}
    (h : w.resolve path = .ok names) (hf : w.root.find? names = some (.file c)) :
    Path.fileName? path.toList = names.getLast?.map String.toList := by
  have hplace := resolve_isPlace h
  rw [resolve_eq (ne_nil_of_resolve h)] at h
  obtain ⟨qs, n, hqs, hn, hlast⟩ := steps_to_file h (List.splitOn_ne_nil _ _)
    (fun p => Text.not_mem_of_mem_splitOn) ⟨by simp, rfl, hplace.root⟩ hf
  obtain ⟨rs, hrs⟩ := Path.exists_splitOn_join w.cwd.toList path.toList
  obtain ⟨ps, p, hp⟩ := (List.eq_nil_or_concat _).resolve_left
    (List.splitOn_ne_nil '/' path.toList)
  rw [hrs, hp, List.concat_eq_append, ← List.append_assoc] at hqs
  obtain ⟨-, hpn⟩ := List.append_inj' hqs rfl
  rw [List.cons_eq_cons.1 hpn |>.1, List.concat_eq_append] at hp
  rw [Path.fileName?_of_splitOn hn hp, hlast]
  rfl

end World

end DocScope
