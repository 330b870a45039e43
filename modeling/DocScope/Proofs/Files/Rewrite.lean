import DocScope.Files.Tree
import DocScope.Proofs.Text.Utf8

/-!
# Writing a file that exists

A new content of a file changes no directory, so every path leads where it led before
(`Entry.put_sameShape`, `World.resolve_put`). `World.write_readText`: a text written to an existing
file can be written, and is read back.
-/

namespace DocScope

namespace Entry

theorem lookup_cons_if (n m : String) (e : Entry) (es : List (String × Entry)) :
    ((n, e) :: es).lookup m = if m = n then some e else es.lookup m := by
  rw [List.lookup_cons]
  by_cases h : m = n
  · simp [h]
  · rw [beq_false_of_ne h, if_neg h]

theorem lookup_replace (name m : String) (new : Entry) (es : List (String × Entry)) :
    (replace name new es).lookup m = if m = name then some new else es.lookup m := by
  induction es with
  | nil => exact lookup_cons_if name m new []
  | cons p es ih =>
    obtain ⟨n, e⟩ := p
    unfold replace
    by_cases hn : n = name
    · subst hn
      rw [if_pos rfl, lookup_cons_if, lookup_cons_if]
      split <;> rfl
    · rw [if_neg hn, lookup_cons_if, ih, lookup_cons_if]
      by_cases hm : m = n
      · subst hm; simp [hn]
      · rw [if_neg hm, if_neg hm]

theorem find?_put (new : Entry) : ∀ (names : List String) (e : Entry),
    (put new names e).find? names = some new
  | [], _ => rfl
  | n :: ns, e => by
    simp only [put, find?, child?, lookup_replace, if_pos, Option.bind_some]
    exact find?_put new ns _

/-- Two look-ups agree on what paths care about: nothing, a file, or a directory with the same
names in it. -/
inductive SameShape : Option Entry → Option Entry → Prop
  | nothing : SameShape none none
  | file {c c' : List UInt8} : SameShape (some (.file c)) (some (.file c'))
  | directory {es es' : List (String × Entry)} (h : ∀ n, (es.lookup n).isSome = (es'.lookup n).isSome) :
      SameShape (some (.directory es)) (some (.directory es'))

theorem SameShape.refl : ∀ e : Option Entry, SameShape e e
  | none => .nothing
  | some (.file _) => .file
  | some (.directory _) => .directory fun _ => rfl

/-- A new content in the place of a file leaves the shape of the tree. -/
theorem put_sameShape {c d : List UInt8} : ∀ (names : List String) (e : Entry),
    e.find? names = some (.file c) →
    ∀ ns, SameShape (e.find? ns) ((put (.file d) names e).find? ns)
  | [], e, h, ns => by
    obtain rfl : e = .file c := by simpa [find?] using h
    cases ns with
    | nil => exact .file
    | cons n ns => exact .nothing
  | n :: names, e, h, ns => by
    cases e with
    | file _ => simp [find?, child?] at h
    | directory es =>
      simp only [find?, child?] at h
      cases hn : es.lookup n with
      | none => simp [hn] at h
      | some child =>
        rw [hn, Option.bind_some] at h
        have ih := put_sameShape (d := d) names child h
        cases ns with
        | nil =>
          refine .directory fun m => ?_
          rw [lookup_replace]
          split
          · subst m; simp [hn]
          · rfl
        | cons m ms =>
          simp only [put, find?, child?, lookup_replace, hn, Option.getD_some]
          by_cases hm : m = n
          · subst hm
            simpa [hn] using ih ms
          · simpa [hm] using SameShape.refl _

end Entry

namespace World

/-- Going along a path looks at the shape of the tree only. -/
theorem step_congr {w w' : World} (h : ∀ ns, Entry.SameShape (w.root.find? ns) (w'.root.find? ns))
    (names : List String) (piece : List Char) : w.step names piece = w'.step names piece := by
  have hn := h names
  unfold step
  generalize w.root.find? names = e at hn ⊢
  generalize w'.root.find? names = e' at hn ⊢
  cases hn with
  | nothing => rfl
  | file => rfl
  | @directory es es' hes =>
    -- only whether the name is there decides how the path goes on
    have hl := hes (.ofList piece)
    simp only
    generalize es.lookup (.ofList piece) = o at hl ⊢
    generalize es'.lookup (.ofList piece) = o' at hl ⊢
    cases o <;> cases o'
    · rfl
    · cases hl
    · cases hl
    · rfl

theorem resolve_put {w : World} {names : List String} {c : List UInt8}
    (h : w.root.find? names = some (.file c)) (c' : List UInt8) (path : String) :
    ({ w with root := Entry.put (.file c') names w.root } : World).resolve path =
      w.resolve path := by
  have hstep : ({ w with root := Entry.put (.file c') names w.root } : World).step = w.step :=
    funext fun ns => funext fun piece =>
      (step_congr (Entry.put_sameShape names w.root h) ns piece).symm
  simp only [resolve, hstep]

/-- A file that can be read as text is a file on the way its path leads. -/
theorem resolve_of_readText {w : World} {path text : String} (h : w.readText path = .ok text) :
    ∃ names c, w.resolve path = .ok names ∧ w.root.find? names = some (.file c) := by
  unfold readText read at h
  cases hr : w.resolve path with
  | error e => simp [hr] at h
  | ok names =>
    rw [hr] at h
    cases hf : w.root.find? names with
    | none => simp [hf] at h
    | some e =>
      cases e with
      | file c => exact ⟨names, c, rfl, hf⟩
      | directory es => simp [hf] at h

/-- **A text written to an existing file is read back.** -/
theorem write_readText {w : World} {path old : String} (h : w.readText path = .ok old)
    (new : String) :
    ∃ w', w.write path (Text.Utf8.bytesOf new) = .ok w' ∧ w'.readText path = .ok new := by
  obtain ⟨names, c, hr, hf⟩ := resolve_of_readText h
  refine ⟨{ w with root := Entry.put (.file (Text.Utf8.bytesOf new)) names w.root },
    by simp only [write, hr, hf], ?_⟩
  simp only [readText, read, resolve_put hf, hr, Entry.find?_put, Text.Utf8.text?_bytesOf]

theorem isFile_of_readText {w : World} {path text : String} (h : w.readText path = .ok text) :
    w.isFile path = true := by
  obtain ⟨names, c, hr, hf⟩ := resolve_of_readText h
  simp only [isFile, lookup?, hr, hf]

end World

end DocScope
