import DocScope.Proofs.Grammar.Nesting

/-!
# The fuel suffices

No rule of the script grammar comes back to itself before something has been read. So between two
bytes only so many expressions are opened, and fuel in proportion to the length of a source is
enough.

* `Expr.idle`: what can fit without reading anything;
* `Expr.need`: the fuel of an expression at the end of a source, where each byte before counts for
  `pace`; `Expr.run_ne_exhausted`: so much is enough;
* `Rule.rank`, `need_script`: the rules of the script grammar;
* `readProgram_ne_exhausted`: so the fuel for a source suffices, and the parser gives a tree for
  every source (`parser_eq`).
-/

namespace DocScope.Grammar

/-! ## Fuel of expressions -/

namespace Expr

variable {ρ τ σ : Type}

section
variable (idleRule : ρ → Bool) (idleToken : τ → Bool)

/-- Whether an expression can fit where nothing is read. -/
def idle : Expr ρ τ → Bool
  | .empty => true
  | .token t => idleToken t
  | .rule r => idleRule r
  | .seq a b => a.idle && b.idle
  | .alt a b => a.idle || b.idle
  | .many _ => true
  | .node _ a => a.idle
  | .field _ a => a.idle
  | .chain first _ => first.idle
  | .grow _ => true
  | .extend _ a => a.idle
  | .ahead _ _ => true

variable (rank : ρ → Nat) (pace : Nat)

/-- The fuel for an expression at the end of a source. What is read after a part that is not idle
has a byte less to read, for which there is fuel of its own. -/
def need : Expr ρ τ → Nat
  | .empty => 1
  | .token _ => 1
  | .rule r => rank r + 1
  | .seq a b => max a.need (b.need - if a.idle idleRule idleToken then 0 else pace) + 1
  | .alt a b => max a.need b.need + 1
  | .many a => a.need + 1
  | .node _ a => a.need + 1
  | .field _ a => a.need + 1
  | .chain first step =>
    max first.need (step.need + 1 - if first.idle idleRule idleToken then 0 else pace) + 1
  | .grow step => step.need + 1
  | .extend _ a => a.need + 1
  | .ahead _ a => a.need + 1

theorem need_pos (e : Expr ρ τ) : 0 < e.need idleRule idleToken rank pace := by
  cases e <;> exact Nat.succ_pos _

end

/-- What is left of the fuel of the bytes after `q`, when `p` was before it. -/
theorem fuel_left {n p q : Nat} (pace : Nat) (idle : Bool) (hq : q ≤ n) (hle : p ≤ q)
    (hlt : idle = false → p < q) :
    pace * (n - q) + (if idle then 0 else pace) ≤ pace * (n - p) := by
  cases idle with
  | true => exact Nat.mul_le_mul_left pace (by omega)
  | false =>
    have hmore := hlt rfl
    calc pace * (n - q) + pace = pace * (n - q + 1) := (Nat.mul_succ ..).symm
      _ ≤ pace * (n - p) := Nat.mul_le_mul_left pace (by omega)

section
variable {idleRule : ρ → Bool} {idleToken : τ → Bool} {grammar : ρ → Expr ρ τ}
  {lex : τ → σ → Option (List Tree × σ)} {pos : σ → Nat} {Ok : σ → Prop}
  (hlex : ∀ t s ts s', Ok s → lex t s = some (ts, s') →
    Ok s' ∧ pos s ≤ pos s' ∧ (idleToken t = false → pos s < pos s'))
  (hidle : ∀ r, idleRule r = false → (grammar r).idle idleRule idleToken = false)
include hlex hidle

/-- Reading goes forward, and what is not idle reads something. -/
theorem Reads.forward {e : Expr ρ τ} {left ts : List Tree} {s s' : σ}
    (h : Reads grammar lex e left s ts s') (hs : Ok s) :
    Ok s' ∧ pos s ≤ pos s' ∧ (e.idle idleRule idleToken = false → pos s < pos s') := by
  induction h with
  | empty => exact ⟨hs, Nat.le_refl _, nofun⟩
  | token h => exact hlex _ _ _ _ hs h
  | @rule r left s ts s' h ih =>
    obtain ⟨hs', hle, hlt⟩ := ih hs
    exact ⟨hs', hle, fun hr => hlt (hidle r hr)⟩
  | seq ha hb iha ihb =>
    obtain ⟨hs₁, hle, hlt⟩ := iha hs
    obtain ⟨hs', hle', hlt'⟩ := ihb hs₁
    refine ⟨hs', Nat.le_trans hle hle', fun he => ?_⟩
    rcases Bool.and_eq_false_iff.1 he with he | he
    · exact Nat.lt_of_lt_of_le (hlt he) hle'
    · exact Nat.lt_of_le_of_lt hle (hlt' he)
  | altLeft h ih =>
    obtain ⟨hs', hle, hlt⟩ := ih hs
    exact ⟨hs', hle, fun he => hlt (Bool.or_eq_false_iff.1 he).1⟩
  | altRight h ih =>
    obtain ⟨hs', hle, hlt⟩ := ih hs
    exact ⟨hs', hle, fun he => hlt (Bool.or_eq_false_iff.1 he).2⟩
  | manyNone => exact ⟨hs, Nat.le_refl _, nofun⟩
  | manyMore ha hmore iha ihmore =>
    obtain ⟨hs₁, hle, -⟩ := iha hs
    obtain ⟨hs', hle', -⟩ := ihmore hs₁
    exact ⟨hs', Nat.le_trans hle hle', nofun⟩
  | node h ih => exact ih hs
  | field h ih => exact ih hs
  | chain hfirst hgrow ihfirst ihgrow =>
    obtain ⟨hs₁, hle, hlt⟩ := ihfirst hs
    obtain ⟨hs', hle', -⟩ := ihgrow hs₁
    exact ⟨hs', Nat.le_trans hle hle', fun he => Nat.lt_of_lt_of_le (hlt he) hle'⟩
  | growNone => exact ⟨hs, Nat.le_refl _, nofun⟩
  | growMore hstep hgrow ihstep ihgrow =>
    obtain ⟨hs₁, hle, -⟩ := ihstep hs
    obtain ⟨hs', hle', -⟩ := ihgrow hs₁
    exact ⟨hs', Nat.le_trans hle hle', nofun⟩
  | extend h ih => exact ih hs
  | ahead => exact ⟨hs, Nat.le_refl _, nofun⟩

/-- **Fuel in proportion to what is left of the source is enough**, if the rank of each rule is. -/
theorem run_ne_exhausted {rank : ρ → Nat} {pace : Nat} (hpace : 0 < pace) {n : Nat}
    (hn : ∀ s, Ok s → pos s ≤ n)
    (hrank : ∀ r, (grammar r).need idleRule idleToken rank pace ≤ rank r) {fuel : Nat}
    {e : Expr ρ τ} {left : List Tree} {s : σ} (hs : Ok s)
    (hfuel : e.need idleRule idleToken rank pace + pace * (n - pos s) ≤ fuel) :
    run grammar lex pos fuel e left s ≠ .exhausted := by
  induction fuel generalizing e left s with
  | zero =>
    have := e.need_pos idleRule idleToken rank pace
    omega
  | succ fuel ih =>
    -- a part that is read at the same place
    have hpart : ∀ {a : Expr ρ τ} {left : List Tree},
        a.need idleRule idleToken rank pace + 1 ≤ e.need idleRule idleToken rank pace →
        run grammar lex pos fuel a left s ≠ .exhausted :=
      fun ha => ih hs (by omega)
    -- a part that is read behind another one
    have hbehind : ∀ {a b : Expr ρ τ} {left left' ts : List Tree} {s' : σ},
        run grammar lex pos fuel a left s = .fits ts s' →
        b.need idleRule idleToken rank pace -
          (if a.idle idleRule idleToken then 0 else pace) + 1 ≤
            e.need idleRule idleToken rank pace →
        run grammar lex pos fuel b left' s' ≠ .exhausted := by
      intro a b left left' ts s' ha hb
      obtain ⟨hs', hle, hlt⟩ := (reads_of_run ha).forward hlex hidle hs
      have hleft := fuel_left pace _ (hn s' hs') hle hlt
      exact ih hs' (by omega)
    -- the same expression once more, when something has been read
    have hagain : ∀ {a : Expr ρ τ} {left left' ts : List Tree} {s' : σ},
        run grammar lex pos fuel a left s = .fits ts s' → pos s < pos s' →
        run grammar lex pos fuel e left' s' ≠ .exhausted := by
      intro a left left' ts s' ha hlt
      obtain ⟨hs', hle, -⟩ := (reads_of_run ha).forward hlex hidle hs
      have hleft := fuel_left pace false (hn s' hs') hle fun _ => hlt
      simp only [Bool.false_eq_true, if_false] at hleft
      exact ih hs' (by omega)
    cases e with
    | empty => simp [run]
    | token t =>
      simp only [run]
      split <;> simp
    | rule r => exact ih hs (by have := hrank r; simp only [need] at hfuel; omega)
    | seq a b =>
      have ha : run grammar lex pos fuel a [] s ≠ .exhausted := hpart (by simp only [need]; omega)
      simp only [run]
      split
      · next ts s' hrun =>
        have hb : run grammar lex pos fuel b [] s' ≠ .exhausted :=
          hbehind hrun (by simp only [need]; omega)
        split
        · simp
        · exact hb
      · exact ha
    | alt a b =>
      have ha : run grammar lex pos fuel a left s ≠ .exhausted := hpart (by simp only [need]; omega)
      have hb : run grammar lex pos fuel b left s ≠ .exhausted := hpart (by simp only [need]; omega)
      simp only [run]
      split
      · exact hb
      · exact ha
    | many a =>
      have ha : run grammar lex pos fuel a [] s ≠ .exhausted := hpart (by simp only [need]; omega)
      simp only [run]
      split
      · next ts s' hrun =>
        split
        · simp
        · next hmore =>
          have hrest : run grammar lex pos fuel (.many a) [] s' ≠ .exhausted :=
            hagain hrun (Nat.lt_of_not_le hmore)
          split
          · simp
          · exact hrest
      · simp
      · next hrun => exact (ha hrun).elim
    | node _ a | field _ a | extend _ a =>
      have ha : run grammar lex pos fuel a [] s ≠ .exhausted := hpart (by simp only [need]; omega)
      simp only [run]
      split
      · simp
      · exact ha
    | chain first step =>
      have hfirst : run grammar lex pos fuel first [] s ≠ .exhausted :=
        hpart (by simp only [need]; omega)
      simp only [run]
      split
      · next ts s' hrun => exact hbehind hrun (by simp only [need]; omega)
      · exact hfirst
    | grow step =>
      have hstep : run grammar lex pos fuel step left s ≠ .exhausted :=
        hpart (by simp only [need]; omega)
      simp only [run]
      split
      · next ts s' hrun =>
        split
        · simp
        · next hmore => exact hagain hrun (Nat.lt_of_not_le hmore)
      · simp
      · next hrun => exact (hstep hrun).elim
    | ahead fits a =>
      have ha : run grammar lex pos fuel a [] s ≠ .exhausted := hpart (by simp only [need]; omega)
      simp only [run]
      split
      · cases fits <;> simp
      · cases fits <;> simp
      · next hrun => exact (ha hrun).elim

end

end Expr

/-! ## Tokens -/

/-- The terminals that may read nothing. -/
def Terminal.isIdle : Terminal → Bool
  | .punct s => s == ""
  | .glyph s => s == ""
  | .tight s => s == ""
  | .keyword s => s == ""
  | .interpreterLine => true
  | .sameLine => true
  | .automaticSemicolon _ => true
  | .endOfInput => true
  | _ => false

theorem positive_eq_some_iff {n k : Nat} : positive n = some k ↔ k = n ∧ 0 < n := by
  unfold positive
  split
  · simp; omega
  · simp only [Option.some.injEq]; omega

theorem length_pos_of_ne_empty {s : String} (h : (s == "") = false) : 0 < s.length := by
  refine Nat.pos_of_ne_zero fun h0 => ?_
  simp [String.length_eq_zero_iff.1 h0] at h

theorem pos_of_positive {n k : Nat} (h : positive n = some k) : 0 < k := by
  obtain ⟨rfl, hpos⟩ := positive_eq_some_iff.1 h
  exact hpos

theorem pos_of_map_add {o : Option Nat} {f : Nat → Nat} {n : Nat} (hf : ∀ k, 0 < f k)
    (h : o.map f = some n) : 0 < n := by
  obtain ⟨k, -, rfl⟩ := Option.map_eq_some_iff.1 h
  exact hf k

/-- A token has a length. -/
theorem Terminal.length?_pos {t : Terminal} (ht : t.isIdle = false) {sign word : String}
    {r : List Glyph} {n : Nat} (h : t.length? sign word r = some n) : 0 < n := by
  cases t with
  | punct s | glyph s | tight s | keyword s =>
    simp only [length?] at h
    split at h
    · cases h
      exact length_pos_of_ne_empty ht
    · cases h
  | identifier =>
    simp only [length?] at h
    split at h
    · cases h
    · exact pos_of_positive h
  | word | number | templateText | markupText => exact pos_of_positive h
  | privateName | string | markupString | regex =>
    simp only [length?] at h
    split at h
    · split at h
      · exact pos_of_map_add (fun _ => by omega) h
      · cases h
    · cases h
  | markupName =>
    simp only [length?] at h
    split at h
    · split at h
      · exact pos_of_positive h
      · cases h
    · cases h
  | interpreterLine | sameLine | automaticSemicolon _ | endOfInput => cases ht

/-- At the end of a source there is no token. -/
theorem Terminal.length?_nil {t : Terminal} (ht : t.isIdle = false) {sign word : String}
    (h : t.isTight = true ∨ sign = "" ∧ word = "") : t.length? sign word [] = none := by
  have hnone : ∀ s : String, (s == "") = false → startsWith s.toList [] = false := by
    intro s hs
    cases hl : s.toList with
    | nil => simp [String.toList_eq_nil_iff.1 hl] at hs
    | cons c cs => rfl
  cases t with
  | punct s | keyword s =>
    obtain ⟨rfl, rfl⟩ := h.resolve_left nofun
    have hs : ("" == s) = false := by rw [BEq.comm]; exact ht
    simp [length?, hs]
  | identifier | word =>
    obtain ⟨rfl, rfl⟩ := h.resolve_left nofun
    rfl
  | glyph s | tight s => simp [length?, hnone s ht]
  | interpreterLine | sameLine | automaticSemicolon _ | endOfInput => cases ht
  | _ => rfl

/-! ## Stands -/

theorem Mark.offset_le_advance (count : Nat) (m : Mark) : m.offset ≤ (m.advance count).offset := by
  fun_induction Mark.advance count m with
  | case1 | case3 => exact Nat.le_refl _
  | case2 count o g r ih =>
    simp only at ih ⊢
    omega

/-- Every glyph after a mark takes some bytes. -/
def Mark.Filled (m : Mark) : Prop := ∀ g ∈ m.rest, 0 < g.width

namespace Mark.Filled

variable {m : Mark} (hm : m.Filled)
include hm

theorem advance (count : Nat) : (m.advance count).Filled := by
  fun_induction Mark.advance count m with
  | case1 | case3 => exact hm
  | case2 count o g r ih => exact ih fun g hg => hm g (List.mem_cons_of_mem _ hg)

theorem offset_lt_advance {count : Nat} (hcount : 0 < count) (hrest : m.rest ≠ []) :
    m.offset < (m.advance count).offset := by
  obtain ⟨o, r⟩ := m
  obtain ⟨g, r, rfl⟩ := List.exists_cons_of_ne_nil hrest
  obtain ⟨count, rfl⟩ := Nat.exists_eq_succ_of_ne_zero (Nat.ne_of_gt hcount)
  have hwidth : 0 < g.width := hm g List.mem_cons_self
  have hle := Mark.offset_le_advance count ⟨o + g.width, r⟩
  simp only [Mark.advance] at hle ⊢
  omega

theorem commentsFrom (fuel : Nat) :
    (∀ c ∈ (commentsFrom fuel m).1, c.2.Filled) ∧ (commentsFrom fuel m).2.Filled := by
  induction fuel generalizing m with
  | zero => exact ⟨List.forall_mem_nil _, hm⟩
  | succ fuel ih =>
    have hgap := hm.advance (countWhile isGap m.rest)
    simp only [Grammar.commentsFrom]
    split
    · exact ⟨List.forall_mem_nil _, hgap⟩
    · next count _ =>
      have hafter := hgap.advance count
      obtain ⟨hcomments, hnext⟩ := ih hafter
      exact ⟨List.forall_mem_cons.2 ⟨hafter, hcomments⟩, hnext⟩

theorem find? {typed operand : Bool} {cs left : List (Tree × Mark)} {taken : List Tree} {m' : Mark}
    (hcs : ∀ c ∈ cs, c.2.Filled) (h : Semicolon.find? typed operand m cs = some (taken, m', left)) :
    m'.Filled ∧ ∀ c ∈ left, c.2.Filled := by
  induction cs generalizing m taken with
  | nil =>
    simp only [Semicolon.find?] at h
    split at h
    · cases h
      exact ⟨hm, List.forall_mem_nil _⟩
    · cases h
  | cons c cs ih =>
    simp only [Semicolon.find?] at h
    split at h
    · cases h
      exact ⟨hm, hcs⟩
    · obtain ⟨⟨taken', found⟩, hfind, heq⟩ := Option.map_eq_some_iff.1 h
      cases heq
      obtain ⟨hc, hcs⟩ := List.forall_mem_cons.1 hcs
      exact ih hc hcs hfind

end Mark.Filled

/-- A stand whose marks are filled, and that knows what it starts with. -/
structure Stand.Filled (s : Stand) : Prop where
  here : s.here.Filled
  comments : ∀ c ∈ s.comments, c.2.Filled
  next : s.next.Filled
  sign : s.sign = punctuatorAt s.next.rest
  word : s.word = textOf (wordLength s.next.rest) s.next.rest

theorem filled_ofMark {m : Mark} (hm : m.Filled) : (Stand.ofMark m).Filled := by
  obtain ⟨hcomments, hnext⟩ := hm.commentsFrom (m.rest.length + 1)
  exact ⟨hm, hcomments, hnext, rfl, rfl⟩

section
variable {n : Nat} {typed : Bool} {t : Terminal} {s s' : Stand} {ts : List Tree}

theorem read_filled (hf : s.Filled) (h : t.read typed s = some (ts, s')) : s'.Filled := by
  unfold Terminal.read at h
  split at h
  · split at h
    · cases h
    · cases h
      exact hf
  · obtain ⟨⟨taken, m, left⟩, hfind, heq⟩ := Option.map_eq_some_iff.1 h
    cases heq
    obtain ⟨hm, hleft⟩ := hf.here.find? hf.comments hfind
    exact ⟨hm, hleft, hf.next, hf.sign, hf.word⟩
  · split at h
    · cases h
      exact hf
    · cases h
  · obtain ⟨count, -, heq⟩ := Option.map_eq_some_iff.1 h
    cases heq
    refine filled_ofMark (.advance ?_ count)
    split
    · exact hf.here
    · exact hf.next

theorem read_lt (hs : s.Within n) (hf : s.Filled) (ht : t.isIdle = false)
    (h : t.read typed s = some (ts, s')) : s.here.offset < s'.here.offset := by
  unfold Terminal.read at h
  split at h
  · cases ht
  · cases ht
  · cases ht
  · obtain ⟨count, hcount, heq⟩ := Option.map_eq_some_iff.1 h
    cases heq
    have hpos : 0 < count := Terminal.length?_pos ht hcount
    cases htight : t.isTight with
    | true =>
      simp only [htight, if_true] at hcount ⊢
      refine hf.here.offset_lt_advance hpos fun hnil => ?_
      rw [hnil, Terminal.length?_nil ht (.inl htight)] at hcount
      cases hcount
    | false =>
      simp only [htight, Bool.false_eq_true, if_false] at hcount ⊢
      refine Nat.lt_of_le_of_lt hs.lane.row.le (hf.next.offset_lt_advance hpos fun hnil => ?_)
      have hsign : s.sign = "" := by rw [hf.sign, hnil]; decide
      have hword : s.word = "" := by rw [hf.word, hnil]; decide
      rw [hnil, Terminal.length?_nil ht (.inr ⟨hsign, hword⟩)] at hcount
      cases hcount

/-- A terminal is read forward. -/
theorem read_forward (hs : s.Within n ∧ s.Filled) (h : t.read typed s = some (ts, s')) :
    (s'.Within n ∧ s'.Filled) ∧ s.here.offset ≤ s'.here.offset ∧
      (t.isIdle = false → s.here.offset < s'.here.offset) := by
  obtain ⟨hs, hf⟩ := hs
  have hwithin : s'.Within n ∧ s.here.offset ≤ s'.here.offset := by
    by_cases hend : t = .endOfInput
    · subst hend
      simp only [Terminal.read] at h
      split at h
      · cases h
        exact ⟨hs, Nat.le_refl _⟩
      · cases h
    · have hmoves : t.moves = true := by
        unfold Terminal.moves
        split
        · exact absurd rfl hend
        · rfl
      obtain ⟨hs', hrow, -⟩ := read_row hs hmoves h
      exact ⟨hs', hrow.le⟩
  exact ⟨⟨hwithin.1, read_filled hf h⟩, hwithin.2, fun ht => read_lt hs hf ht h⟩

end

/-! ## The script grammar -/

/-- The rules that may read nothing. -/
def Rule.isIdle : Rule → Bool
  | .program => true
  | _ => false

/-- How many expressions a rule opens before something is read. -/
def Rule.rank : Rule → Nat
  | .program => 130
  | .statement => 120
  | .expressions => 90
  | .expression => 80
  | .conditional => 75
  | .binary level => 45 + 2 * (11 - level)
  | .power => 44
  | .unary => 42
  | .postfixed => 37
  | .leftHand => 35
  | .constructorOf => 35
  | .primary => 33
  | .type => 44
  | .typeUnion => 37
  | .typeOperator => 32
  | .typeSuffix => 29
  | .typePrimary => 27
  | .member => 37
  | .declaration _ => 27
  | .declarators => 27
  | .arrow => 27
  | .objectMember => 27
  | .typeMember => 27
  | .classDeclaration _ => 17
  | .classExpression => 17
  | .classRest => 17
  | .exportStatement => 17
  | .signature => 17
  | .pattern => 17
  | .markupChild => 17
  | _ => 7

theorem need_binary (d : Dialect) (level : Nat) :
    (Form.binary d level).need Rule.isIdle Terminal.isIdle Rule.rank 1000 ≤
      (Rule.binary level).rank := by
  by_cases hlevel : level < 11
  · have hall : ∀ level < 11,
        (Form.binary d level).need Rule.isIdle Terminal.isIdle Rule.rank 1000 ≤
          (Rule.binary level).rank := by
      cases d <;> decide +kernel
    exact hall level hlevel
  · have hnone : Form.binaryLevels[level]? = none := List.getElem?_eq_none (Nat.le_of_not_lt hlevel)
    simp only [Form.binary, hnone, Expr.need, Rule.rank]
    omega

theorem idle_binary (d : Dialect) (level : Nat) :
    (Form.binary d level).idle Rule.isIdle Terminal.isIdle = false := by
  unfold Form.binary
  split <;> rfl

/-- No rule comes back to itself before something is read: the rules have ranks. -/
theorem need_script (d : Dialect) (r : Rule) :
    (script d r).need Rule.isIdle Terminal.isIdle Rule.rank 1000 ≤ r.rank := by
  cases r with
  | binary level => exact need_binary d level
  | declaration operand | functionDeclaration operand | classDeclaration operand | body operand =>
    cases d <;> cases operand <;> decide +kernel
  | _ => cases d <;> decide +kernel

theorem idle_script (d : Dialect) (r : Rule) (hr : r.isIdle = false) :
    (script d r).idle Rule.isIdle Terminal.isIdle = false := by
  cases r with
  | binary level => exact idle_binary d level
  | program => cases hr
  | declaration operand | functionDeclaration operand | classDeclaration operand | body operand =>
    cases d <;> cases operand <;> decide +kernel
  | _ => cases d <;> decide +kernel

theorem width_pos_of_front {bytes : List UInt8} {c : Char} {w : Nat}
    (h : Text.Utf8.front bytes = .char c w) : 0 < w := by
  unfold Text.Utf8.front at h
  repeat' split at h
  all_goals cases h
  all_goals decide

theorem filled_glyphs (fuel : Nat) (bytes : List UInt8) :
    ∀ g ∈ glyphsFrom fuel bytes, 0 < g.width := by
  induction fuel generalizing bytes with
  | zero => exact List.forall_mem_nil _
  | succ fuel ih =>
    simp only [glyphsFrom]
    split
    · exact List.forall_mem_nil _
    · next c w hfront => exact List.forall_mem_cons.2 ⟨width_pos_of_front hfront, ih _⟩
    · exact List.forall_mem_cons.2 ⟨Nat.zero_lt_one, ih _⟩

/-- **The fuel for a source suffices.** -/
theorem readProgram_ne_exhausted (d : Dialect) (source : List UInt8) :
    readProgram d source ≠ .exhausted := by
  have hwithin : (Stand.ofMark ⟨0, glyphs source⟩).Within source.length :=
    within_ofMark (by simpa [Mark.Within, glyphs] using width_glyphs_le source.length source)
  have hfilled : (Stand.ofMark ⟨0, glyphs source⟩).Filled :=
    filled_ofMark (filled_glyphs source.length source)
  have hread : ∀ t s ts s', s.Within source.length ∧ s.Filled →
      Terminal.read d.hasTypes t s = some (ts, s') →
        (s'.Within source.length ∧ s'.Filled) ∧ s.here.offset ≤ s'.here.offset ∧
          (t.isIdle = false → s.here.offset < s'.here.offset) :=
    fun _ _ _ _ hs h => read_forward hs h
  have hend : ∀ s : Stand, s.Within source.length ∧ s.Filled → s.here.offset ≤ source.length :=
    fun _ hs => Nat.le_trans (Nat.le_add_right _ _) hs.1.here
  refine Expr.run_ne_exhausted hread (idle_script d) (by decide : 0 < 1000) hend (need_script d)
    ⟨hwithin, hfilled⟩ ?_
  simp only [Expr.need, Rule.rank, fuelFor]
  omega

/-- The parser gives a tree for every source, and marks those that do not follow the grammar. -/
theorem parser_eq (d : Dialect) (source : List UInt8) :
    parser d source = some (match parse? d source with
      | some t => ⟨t, false⟩
      | none => ⟨programTree source [], true⟩) := by
  have henough := readProgram_ne_exhausted d source
  unfold parser parse?
  cases hread : readProgram d source with
  | fits trees s => rfl
  | fails => rfl
  | exhausted => exact absurd hread henough

end DocScope.Grammar
