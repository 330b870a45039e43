import DocScope.Proofs.Diff.Hunk
import Mathlib.Algebra.Group.Nat.Defs
import Mathlib.Data.List.TakeWhile

/-!
# The grammar of hunk headers

A header is `@@ `, anything without a plus sign and an at sign, a plus sign, the start of the new
side, perhaps a comma and its length, and ` @@`; what follows does not matter (`headerText`).

* `number?_eq_some_iff`, `count?_eq_some_iff`, `read?_eq_some_iff`: what each reader accepts, part by
  part and from the front.
* `append_inj_of_stop`: the parts of a header are determined by its text, since each ends where a
  character stands that the part cannot have.
* `parse?_eq_some_iff_headerText`: the headers that are read are those of the grammar, and a number
  that is too large or has other digits than `0` to `9` spoils the header.
-/

namespace DocScope

namespace HunkRange

/-! ## The grammar -/

/-- Decimal digits, perhaps with zeros in front, for the line number `n`. -/
structure Writes (ds : String) (n : Nat) : Prop where
  ne_nil : ds.toList ≠ []
  digits : ∀ c ∈ ds.toList, c.isDigit = true
  value : Nat.ofDigitChars 10 ds.toList 0 = n
  small : n < 2 ^ 64

/-- The text of a count: nothing for one line, else a number behind a comma. -/
def WritesCount (t : String) (n : Nat) : Prop :=
  t = "" ∧ n = 1 ∨ ∃ dc, t = "," ++ dc ∧ Writes dc n

/-- A header with `old` before the new side, which is `start` and `count`, and `rest` behind it. -/
def headerText (old start count rest : String) : String :=
  "@@ " ++ old ++ "+" ++ start ++ count ++ " @@" ++ rest

theorem toList_headerText (old start count rest : String) :
    (headerText old start count rest).toList = ['@', '@', ' '] ++ (old.toList ++ '+' ::
      (start.toList ++ (count.toList ++ ([' ', '@', '@'] ++ rest.toList)))) := by
  simp [headerText, String.toList_append]

/-! ## What the readers accept -/

theorem number?_eq_some_iff {s r : List Char} {n : Nat} :
    number? s = some (n, r) ↔
      ∃ ds, Writes ds n ∧ s = ds.toList ++ r ∧ ∀ c ∈ r.head?, c.isDigit = false := by
  constructor
  · intro h
    unfold number? at h
    simp only [Bool.or_eq_true, decide_eq_true_eq, Option.ite_none_left_eq_some, not_or,
      Option.some.injEq, Prod.mk.injEq] at h
    obtain ⟨⟨hne, hlt⟩, rfl, rfl⟩ := h
    refine ⟨.ofList (s.takeWhile Char.isDigit), ⟨by simpa using hne, ?_, ?_, ?_⟩, ?_, ?_⟩
    · intro c hc
      rw [String.toList_ofList] at hc
      exact List.mem_takeWhile_imp hc
    · rw [String.toList_ofList]
      rfl
    · exact Nat.lt_of_not_le hlt
    · rw [String.toList_ofList, List.takeWhile_append_dropWhile]
    · intro c hc
      have hhead := List.head?_dropWhile_not Char.isDigit s
      rw [Option.mem_def.1 hc] at hhead
      exact hhead
  · rintro ⟨ds, hds, rfl, hr⟩
    obtain ⟨hne, hdigits, hvalue, hsmall⟩ := hds
    subst hvalue
    exact number?_append hne hdigits hsmall hr

theorem count?_eq_some_iff {s r : List Char} {n : Nat} :
    count? s = some (n, r) ↔
      (∃ t, s = ',' :: t ∧ number? t = some (n, r)) ∨ s.head? ≠ some ',' ∧ n = 1 ∧ r = s := by
  unfold count?
  split
  · simp
  · next h =>
    have hhead : s.head? ≠ some ',' := by
      intro hs
      obtain ⟨t, rfl⟩ := List.head?_eq_some_iff.1 hs
      exact h t rfl
    have hcons : ¬ ∃ t, s = ',' :: t ∧ number? t = some (n, r) := fun ⟨t, ht, _⟩ => h t ht
    simp only [Option.some.injEq, Prod.mk.injEq, hcons, false_or, hhead, ne_eq,
      not_false_eq_true, true_and]
    exact and_congr eq_comm eq_comm

theorem read?_eq_some_iff {l : List Char} {start count : Nat} :
    read? l = some ⟨start, count⟩ ↔
      ∃ old new afterStart rest, (∀ c ∈ old, c ≠ '+' ∧ c ≠ '@') ∧
        l = ['@', '@', ' '] ++ (old ++ '+' :: new) ∧ number? new = some (start, afterStart) ∧
        count? afterStart = some (count, [' ', '@', '@'] ++ rest) := by
  constructor
  · intro h
    unfold read? at h
    split at h
    · cases h
    next r hr =>
    split at h
    next new hnew =>
      split at h
      · cases h
      next n afterStart hstart =>
      split at h
      · cases h
      next m r' hcount =>
      split at h
      next hrest =>
        obtain ⟨rest, hrest⟩ := List.isPrefixOf_iff_prefix.1 hrest
        cases h
        refine ⟨r.takeWhile fun c => c != '+' && c != '@', new, afterStart, rest, ?_, ?_, hstart,
          by rw [hcount, hrest]⟩
        · intro c hc
          simpa using List.mem_takeWhile_imp hc
        · rw [← hnew, List.takeWhile_append_dropWhile]
          exact (List.isPrefixOf?_eq_some_iff_append_eq.1 hr).symm
      · cases h
    · cases h
  · rintro ⟨old, new, afterStart, rest, hold, rfl, hstart, hcount⟩
    exact read?_eq hold hstart hcount

/-! ## The parts of a header -/

/-- Two texts are cut at the same place, if each cut is in front of the first character that
satisfies `p`. -/
theorem append_inj_of_stop {p : Char → Prop} {a b x y : List Char} (h : a ++ x = b ++ y)
    (ha : ∀ c ∈ a, ¬ p c) (hb : ∀ c ∈ b, ¬ p c) (hx : ∃ c ∈ x.head?, p c)
    (hy : ∃ c ∈ y.head?, p c) : a = b ∧ x = y := by
  obtain ⟨c, hc, hpc⟩ := hx
  obtain ⟨d, hd, hpd⟩ := hy
  rcases List.append_eq_append_iff.1 h with ⟨m, rfl, rfl⟩ | ⟨m, rfl, rfl⟩
  · cases m with
    | nil => simp
    | cons e m =>
      obtain rfl : e = c := by simpa using hc
      exact absurd hpc (hb e (by simp))
  · cases m with
    | nil => simp
    | cons e m =>
      obtain rfl : e = d := by simpa using hd
      exact absurd hpd (ha e (by simp))

/-- A text that can stand in the place of a number: it does not end before the next mark. -/
def IsWord (s : String) : Prop := ∀ c ∈ s.toList, c ≠ ',' ∧ c ≠ ' '

/-- A text that can stand in the place of a count. -/
def IsCountPlace (t : String) : Prop := t = "" ∨ ∃ dc, t = "," ++ dc ∧ IsWord dc

theorem Writes.isWord {ds : String} {n : Nat} (h : Writes ds n) : IsWord ds := by
  intro c hc
  have hdigit := h.digits c hc
  constructor
  · rintro rfl
    cases hdigit
  · rintro rfl
    cases hdigit

theorem WritesCount.isCountPlace {t : String} {n : Nat} (h : WritesCount t n) :
    IsCountPlace t := by
  rcases h with ⟨rfl, -⟩ | ⟨dc, rfl, hdc⟩
  · exact .inl rfl
  · exact .inr ⟨dc, rfl, hdc.isWord⟩

theorem IsCountPlace.no_space {t : String} (h : IsCountPlace t) : ∀ c ∈ t.toList, c ≠ ' ' := by
  intro c hc
  rcases h with rfl | ⟨dc, rfl, hdc⟩
  · simp at hc
  · rw [String.toList_append] at hc
    rcases List.mem_append.1 hc with hc | hc
    · obtain rfl : c = ',' := by simpa using hc
      decide
    · exact (hdc c hc).2

theorem IsCountPlace.head {t : String} (h : IsCountPlace t) (rest : List Char) :
    ∃ c ∈ (t.toList ++ ([' ', '@', '@'] ++ rest)).head?, c = ',' ∨ c = ' ' := by
  rcases h with rfl | ⟨dc, rfl, -⟩
  · exact ⟨' ', by simp, .inr rfl⟩
  · exact ⟨',', by simp, .inl rfl⟩

/-- The text of a header determines the places of its numbers. -/
theorem headerText_inj {old ds t rest old' ds' t' rest' : String}
    (h : headerText old ds t rest = headerText old' ds' t' rest') (hold : '+' ∉ old.toList)
    (hold' : '+' ∉ old'.toList) (hds : IsWord ds) (hds' : IsWord ds') (ht : IsCountPlace t)
    (ht' : IsCountPlace t') : ds = ds' ∧ t = t' := by
  have hl := congrArg String.toList h
  rw [toList_headerText, toList_headerText] at hl
  obtain ⟨-, hnew⟩ := append_inj_of_stop (p := (· = '+')) (List.append_cancel_left hl)
    (fun c hc hp => hold (hp ▸ hc)) (fun c hc hp => hold' (hp ▸ hc)) ⟨'+', rfl, rfl⟩
    ⟨'+', rfl, rfl⟩
  obtain ⟨hstart, hcount⟩ := append_inj_of_stop (p := fun c => c = ',' ∨ c = ' ')
    (List.cons_eq_cons.1 hnew).2 (fun c hc => not_or.2 (hds c hc))
    (fun c hc => not_or.2 (hds' c hc)) (ht.head _) (ht'.head _)
  obtain ⟨hcount, -⟩ := append_inj_of_stop (p := (· = ' ')) hcount ht.no_space ht'.no_space
    ⟨' ', rfl, rfl⟩ ⟨' ', rfl, rfl⟩
  exact ⟨String.toList_inj.1 hstart, String.toList_inj.1 hcount⟩

/-! ## Headers -/

theorem exists_headerText {l : String} {start count : Nat} (h : parse? l = some ⟨start, count⟩) :
    ∃ old ds t rest, l = headerText old ds t rest ∧ (∀ c ∈ old.toList, c ≠ '+' ∧ c ≠ '@') ∧
      Writes ds start ∧ WritesCount t count := by
  obtain ⟨old, new, afterStart, rest, hold, hl, hstart, hcount⟩ := read?_eq_some_iff.1 h
  obtain ⟨ds, hds, rfl, -⟩ := number?_eq_some_iff.1 hstart
  have hold' : ∀ c ∈ (String.ofList old).toList, c ≠ '+' ∧ c ≠ '@' := by
    rwa [String.toList_ofList]
  rcases count?_eq_some_iff.1 hcount with ⟨t, rfl, ht⟩ | ⟨-, rfl, hrest⟩
  · obtain ⟨dc, hdc, rfl, -⟩ := number?_eq_some_iff.1 ht
    refine ⟨.ofList old, ds, "," ++ dc, .ofList rest, ?_, hold', hds, .inr ⟨dc, rfl, hdc⟩⟩
    refine String.toList_inj.1 ?_
    rw [hl, toList_headerText]
    simp
  · subst hrest
    refine ⟨.ofList old, ds, "", .ofList rest, ?_, hold', hds, .inl ⟨rfl, rfl⟩⟩
    refine String.toList_inj.1 ?_
    rw [hl, toList_headerText]
    simp

theorem parse?_headerText {old ds t rest : String} {start count : Nat}
    (hold : ∀ c ∈ old.toList, c ≠ '+' ∧ c ≠ '@') (hds : Writes ds start)
    (ht : WritesCount t count) : parse? (headerText old ds t rest) = some ⟨start, count⟩ := by
  have hspace : ∀ c ∈ ([' ', '@', '@'] ++ rest.toList).head?, c.isDigit = false := by
    rintro c ⟨⟩
    rfl
  rw [parse?, toList_headerText]
  rcases ht with ⟨rfl, rfl⟩ | ⟨dc, rfl, hdc⟩
  · refine read?_eq hold (number?_eq_some_iff.2 ⟨ds, hds, rfl, ?_⟩)
      (count?_eq_some_iff.2 (.inr ⟨?_, rfl, rfl⟩))
    · simp
    · simp
  · refine read?_eq hold (number?_eq_some_iff.2 ⟨ds, hds, rfl, ?_⟩)
      (count?_eq_some_iff.2 (.inl ⟨dc.toList ++ ([' ', '@', '@'] ++ rest.toList), ?_,
        number?_eq_some_iff.2 ⟨dc, hdc, rfl, hspace⟩⟩))
    · simp
    · simp

/-- **The headers that are read are those of the grammar.** In the place of a number anything but
decimal digits for a number below `2 ^ 64` makes the whole line no header. -/
theorem parse?_eq_some_iff_headerText (l : String) :
    (∀ start count, parse? l = some ⟨start, count⟩ ↔
      ∃ old ds t rest, l = headerText old ds t rest ∧ (∀ c ∈ old.toList, c ≠ '+' ∧ c ≠ '@') ∧
        Writes ds start ∧ WritesCount t count) ∧
    ∀ old ds t rest, l = headerText old ds t rest → (∀ c ∈ old.toList, c ≠ '+' ∧ c ≠ '@') →
      IsWord ds → IsCountPlace t → ((∀ n, ¬ Writes ds n) ∨ ∀ n, ¬ WritesCount t n) →
      parse? l = none := by
  refine ⟨fun start count => ⟨exists_headerText, ?_⟩, ?_⟩
  · rintro ⟨old, ds, t, rest, rfl, hold, hds, ht⟩
    exact parse?_headerText hold hds ht
  · intro old ds t rest hl hold hds ht hbad
    cases hread : parse? l with
    | none => rfl
    | some range =>
      obtain ⟨old', ds', t', rest', hl', hold', hstart, hcount⟩ := exists_headerText hread
      obtain ⟨rfl, rfl⟩ := headerText_inj (hl.symm.trans hl') (fun hm => (hold _ hm).1 rfl)
        (fun hm => (hold' _ hm).1 rfl) hds hstart.isWord ht hcount.isCountPlace
      rcases hbad with hbad | hbad
      · exact absurd hstart (hbad _)
      · exact absurd hcount (hbad _)

/-- The largest number with zeros in front of the start; one more than the largest; a digit of
another script. -/
theorem parse?_eq_some_iff_headerText_largest :
    parse? "@@ -1,2 +007,18446744073709551615 @@ f" = some ⟨7, 18446744073709551615⟩ ∧
      parse? "@@ -1,2 +7,18446744073709551616 @@ f" = none ∧ parse? "@@ -1 +٣ @@" = none := by
  refine ⟨((parse?_eq_some_iff_headerText _).1 _ _).2 ?_, ?_, ?_⟩
  · exact ⟨"-1,2 ", "007", ",18446744073709551615", " f", by decide, by simp,
      ⟨by decide, by simp, by decide, by decide⟩,
      .inr ⟨"18446744073709551615", by decide, by decide, by simp, by decide, by decide⟩⟩
  · refine (parse?_eq_some_iff_headerText _).2 "-1,2 " "7" ",18446744073709551616" " f" (by decide)
      (by simp) (by simp [IsWord]) (.inr ⟨"18446744073709551616", by decide, by simp [IsWord]⟩)
      (.inr fun n hn => ?_)
    rcases hn with ⟨h, -⟩ | ⟨dc, h, hdc⟩
    · exact absurd h (by decide)
    · have hlist : dc.toList = "18446744073709551616".toList := by
        simpa using (congrArg String.toList h).symm
      have hn := hdc.value.symm.trans (by rw [hlist])
      exact absurd hdc.small (by rw [hn]; decide)
  · refine (parse?_eq_some_iff_headerText _).2 "-1 " "٣" "" "" (by decide) (by simp)
      (by simp [IsWord]) (.inl rfl) (.inl fun n hn => ?_)
    exact absurd (hn.digits '٣' (by decide)) (by decide)

end HunkRange

end DocScope
