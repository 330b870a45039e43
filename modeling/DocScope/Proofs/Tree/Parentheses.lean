import DocScope.Check.Declaration
import DocScope.Proofs.Tree.LeadingComments
import DocScope.Proofs.Tree.Places
import DocScope.Proofs.Tree.Row

/-!
# Parentheses around a function

A pair of parentheses is written around a function: its text goes into the source, and the function
moves one level down in the tree. What stands before the function stays where it is, and what stands
after it moves on by the length of the pair (`Frame.widen`).

* `Place.row_root`: the frames of a place leave a gap between two offsets;
* `Parentheses.getElem?_write_before`, `…_inside`, `…_after`: the bytes of the new source;
* `Parentheses.alike_around`: one pair keeps what is read off the tree about the function;
* `Parentheses.verdict_parenthesize`: so does any number of them.
-/

namespace DocScope

open DocScope.Tree (Row shift row_cons row_append_cons)

/-! ## The gap of a place -/

/-- What is outside the gap, where the gap grows by `n` bytes. -/
def Frame.widen (n : Nat) (f : Frame) : Frame :=
  { f with stop := f.stop + n, after := f.after.map (shift n) }

/-- A tree between the offsets `s` and `e` fits into the innermost frame, and the outermost ends
within `n` bytes. -/
def Gap (n : Nat) : List Frame → Nat → Nat → Prop
  | [], _, e => e ≤ n
  | f :: fs, s, e => Row f.start f.before.reverse s ∧ Row e f.after f.stop ∧ Gap n fs f.start f.stop

theorem Place.row_root {p : Place} {n : Nat} :
    Row 0 [p.root] n ↔ Row p.focus.start p.focus.children p.focus.stop ∧
      Gap n p.above p.focus.start p.focus.stop := by
  obtain ⟨focus, above⟩ := p
  induction above generalizing focus with
  | nil =>
    rw [root, List.foldl_nil, row_cons]
    constructor
    · rintro ⟨-, inside, rest⟩
      exact ⟨inside, rest.le⟩
    · rintro ⟨inside, hle⟩
      exact ⟨Nat.zero_le _, inside, .nil hle⟩
  | cons f fs ih =>
    have hrow : Row (f.fill focus).start (f.fill focus).children (f.fill focus).stop ↔
        Row f.start f.before.reverse focus.start ∧ Row focus.start focus.children focus.stop ∧
          Row focus.stop f.after f.stop := row_append_cons
    rw [root, List.foldl_cons]
    refine (ih (f.fill focus)).trans ?_
    rw [hrow, Gap]
    constructor
    · rintro ⟨⟨hbefore, inside, hafter⟩, hgap⟩
      exact ⟨inside, hbefore, hafter, hgap⟩
    · rintro ⟨inside, hbefore, hafter, hgap⟩
      exact ⟨⟨hbefore, inside, hafter⟩, hgap⟩

namespace Gap

variable {n s e : Nat} {above : List Frame}

theorem stop_le (h : Gap n above s e) : e ≤ n := by
  induction above generalizing s e with
  | nil => exact h
  | cons f fs ih => exact Nat.le_trans h.2.1.le (ih h.2.2)

theorem before (h : Gap n above s e) {f : Frame} (hf : f ∈ above) {t : Tree} (ht : t ∈ f.before) :
    t.start ≤ t.stop ∧ t.stop ≤ s := by
  induction above generalizing s e with
  | nil => cases hf
  | cons g gs ih =>
    rcases List.mem_cons.1 hf with rfl | hf
    · exact (h.1.of_mem (List.mem_reverse.2 ht)).2
    · have hg := ih h.2.2 hf
      have hle := h.1.le
      omega

theorem after (h : Gap n above s e) {f : Frame} (hf : f ∈ above) {t : Tree} (ht : t ∈ f.after) :
    e ≤ t.start := by
  induction above generalizing s e with
  | nil => cases hf
  | cons g gs ih =>
    rcases List.mem_cons.1 hf with rfl | hf
    · exact (h.2.1.of_mem ht).1
    · have hg := ih h.2.2 hf
      have hle := h.2.1.le
      omega

theorem start_le (h : Gap n above s e) {f : Frame} (hf : f ∈ above) : f.start ≤ s := by
  induction above generalizing s e with
  | nil => cases hf
  | cons g gs ih =>
    rcases List.mem_cons.1 hf with rfl | hf
    · exact h.1.le
    · exact Nat.le_trans (ih h.2.2 hf) h.1.le

theorem widen (h : Gap n above s e) (m : Nat) :
    Gap (n + m) (above.map (Frame.widen m)) s (e + m) := by
  induction above generalizing s e with
  | nil => exact Nat.add_le_add_right h m
  | cons f fs ih => exact ⟨h.1, h.2.1.shift m, ih h.2.2⟩

end Gap

/-! ## The new source -/

section
variable {source text : List UInt8} {t u : Tree}

theorem Tree.text_congr {n : Nat} (hstart : u.start = t.start + n) (hstop : u.stop = t.stop + n)
    (h : ∀ i, t.start ≤ i → i < t.stop → text[i + n]? = source[i]?) :
    u.text text = t.text source := by
  have hbytes : (text.drop u.start).take (u.stop - u.start) =
      (source.drop t.start).take (t.stop - t.start) := by
    rw [hstart, hstop, Nat.add_sub_add_right]
    refine List.ext_getElem? fun i => ?_
    rw [List.getElem?_take, List.getElem?_take]
    split
    · rw [List.getElem?_drop, List.getElem?_drop, Nat.add_right_comm, h] <;> omega
    · rfl
  rw [Tree.text, hbytes, Tree.text]

theorem Tree.line_congr (hstart : u.start = t.start)
    (h : ∀ i, i < t.start → text[i]? = source[i]?) : u.line text = t.line source := by
  have hbytes : text.take u.start = source.take t.start := by
    rw [hstart]
    refine List.ext_getElem? fun i => ?_
    rw [List.getElem?_take, List.getElem?_take]
    split
    · exact h i (by assumption)
    · rfl
  rw [Tree.line, Position.ofOffset, hbytes]
  rfl

end

/-- What a pair of parentheses adds in front of a function and behind it: bytes, and the trees that
stand in them. -/
structure Parentheses where
  opening : List UInt8
  closing : List UInt8
  before : List Tree
  after : List Tree
  before_row : Row 0 before opening.length
  after_row : Row 0 after closing.length

namespace Parentheses

/-- The source with the pair around the function at `p`. -/
def write (b : Parentheses) (source : List UInt8) (p : Place) : List UInt8 :=
  source.take p.focus.start ++ b.opening ++
    ((source.take p.focus.stop).drop p.focus.start ++ (b.closing ++ source.drop p.focus.stop))

/-- The length of a pair. -/
def size (b : Parentheses) : Nat := b.opening.length + b.closing.length

/-- The place of the function at `p` within the pair, which takes over its role. -/
def around (b : Parentheses) (p : Place) : Place where
  focus := .node p.focus.kind none (p.focus.start + b.opening.length)
    (p.focus.stop + b.opening.length) (p.focus.children.map (shift b.opening.length))
  above :=
    { kind := .parenthesized
      role := p.focus.role
      start := p.focus.start
      stop := p.focus.stop + b.size
      before := (b.before.map (shift p.focus.start)).reverse
      after := b.after.map (shift (p.focus.stop + b.opening.length)) } ::
    p.above.map (Frame.widen b.size)

section
variable {b : Parentheses} {source : List UInt8} {p : Place}
  (hrow : Row 0 [p.root] source.length)
include hrow

theorem bounds : p.focus.start ≤ p.focus.stop ∧ p.focus.stop ≤ source.length :=
  have h := Place.row_root.1 hrow
  ⟨h.1.le, h.2.stop_le⟩

theorem row_around : Row 0 [(b.around p).root] (b.write source p).length := by
  obtain ⟨inside, hgap⟩ := Place.row_root.1 hrow
  obtain ⟨hle, hlen⟩ := bounds hrow
  have hlength : (b.write source p).length = source.length + b.size := by
    simp [write, size]
    omega
  rw [hlength]
  refine Place.row_root.2 ⟨inside.shift _, ?_, ?_, hgap.widen _⟩
  · show Row p.focus.start (b.before.map (shift p.focus.start)).reverse.reverse
      (p.focus.start + b.opening.length)
    rw [List.reverse_reverse]
    exact (b.before_row.shift p.focus.start).mono (by omega) (by omega)
  · show Row (p.focus.stop + b.opening.length)
      (b.after.map (shift (p.focus.stop + b.opening.length))) (p.focus.stop + b.size)
    exact (b.after_row.shift _).mono (by omega) (by unfold size; omega)

theorem getElem?_write_before {i : Nat} (hi : i < p.focus.start) :
    (b.write source p)[i]? = source[i]? := by
  obtain ⟨hle, hlen⟩ := bounds hrow
  rw [write, List.getElem?_append_left (by simp; omega),
    List.getElem?_append_left (by simp; omega), List.getElem?_take_of_lt hi]

theorem getElem?_write_inside {i : Nat} (hstart : p.focus.start ≤ i) (hstop : i < p.focus.stop) :
    (b.write source p)[i + b.opening.length]? = source[i]? := by
  obtain ⟨hle, hlen⟩ := bounds hrow
  have hskip : (source.take p.focus.start ++ b.opening).length =
      p.focus.start + b.opening.length := by
    simp
    omega
  rw [write, List.getElem?_append_right (by omega), hskip, Nat.add_sub_add_right,
    List.getElem?_append_left (by simp; omega), List.getElem?_drop, Nat.add_sub_cancel' hstart,
    List.getElem?_take_of_lt hstop]

theorem getElem?_write_after {i : Nat} (hi : p.focus.stop ≤ i) :
    (b.write source p)[i + b.size]? = source[i]? := by
  obtain ⟨hle, hlen⟩ := bounds hrow
  have hskip : (source.take p.focus.start ++ b.opening ++
      ((source.take p.focus.stop).drop p.focus.start ++ b.closing)).length =
        p.focus.stop + b.size := by
    simp [size]
    omega
  rw [write, ← List.append_assoc _ b.closing, ← List.append_assoc,
    List.getElem?_append_right (by omega), hskip, Nat.add_sub_add_right, List.getElem?_drop,
    Nat.add_sub_cancel' hi]

theorem text_before {f : Frame} (hf : f ∈ p.above) {t : Tree} (ht : t ∈ f.before) :
    t.text (b.write source p) = t.text source ∧ t.line (b.write source p) = t.line source := by
  have hle := (Place.row_root.1 hrow).2.before hf ht
  constructor
  · refine Tree.text_congr (n := 0) rfl rfl fun i _ hi => ?_
    exact getElem?_write_before hrow (by omega)
  · refine Tree.line_congr rfl fun i hi => ?_
    exact getElem?_write_before hrow (by omega)

theorem text_after {f : Frame} (hf : f ∈ p.above) {t : Tree} (ht : t ∈ f.after) :
    (t.shift b.size).text (b.write source p) = t.text source := by
  have hle := (Place.row_root.1 hrow).2.after hf ht
  refine Tree.text_congr (Tree.start_shift _ t) (Tree.stop_shift _ t) fun i hi _ => ?_
  exact getElem?_write_after hrow (by omega)

theorem text_inside {t : Tree} (ht : t ∈ p.focus.children) :
    (t.shift b.opening.length).text (b.write source p) = t.text source := by
  have hle := (Place.row_root.1 hrow).1.of_mem ht
  refine Tree.text_congr (Tree.start_shift _ t) (Tree.stop_shift _ t) fun i hstart hstop => ?_
  exact getElem?_write_inside hrow (by omega) (by omega)

end

end Parentheses

namespace Place

/-! ## Moving up on both sides -/

section
variable {p q : Place} {n : Nat}

theorem above_parent? (h : p.parent? = some q) : q.above <:+ p.above := by
  obtain ⟨focus, _ | ⟨f, fs⟩⟩ := p
  · cases h
  · cases h
    exact List.suffix_cons f fs

theorem exists_start_parent? (h : p.parent? = some q) : ∃ f ∈ p.above, q.focus.start = f.start := by
  obtain ⟨focus, _ | ⟨f, fs⟩⟩ := p
  · cases h
  · cases h
    exact ⟨f, List.mem_cons_self, rfl⟩

theorem exists_of_mem_before {t : Tree} (h : t ∈ p.before) : ∃ f ∈ p.above, t ∈ f.before := by
  obtain ⟨focus, _ | ⟨f, fs⟩⟩ := p
  · cases h
  · exact ⟨f, List.mem_cons_self, h⟩

theorem above_outsideParentheses (t : Tree) (fs : List Frame) :
    (outsideParentheses t fs).above <:+ fs := by
  induction fs generalizing t with
  | nil => exact List.suffix_rfl
  | cons f fs ih =>
    rw [outsideParentheses]
    split
    · exact (ih _).trans (List.suffix_cons f fs)
    · exact List.suffix_rfl

theorem above_exported (p : Place) : p.exported.above <:+ p.above := by
  unfold exported
  split
  · next hq =>
    split
    · exact above_parent? hq
    · exact List.suffix_rfl
  · exact List.suffix_rfl

theorem above_anchor (p : Place) : p.anchor.above <:+ p.above := by
  unfold anchor
  split
  · split
    · next hq =>
      split
      · exact (above_exported _).trans (above_parent? hq)
      · exact List.suffix_rfl
    · exact List.suffix_rfl
  · exact above_exported p

/-- `q` stands where `p` stands, in a tree that is `n` bytes longer from within the two on. -/
structure Grown (n : Nat) (p q : Place) : Prop where
  role : q.focus.role = p.focus.role
  start : q.focus.start = p.focus.start
  above : q.above = p.above.map (Frame.widen n)

theorem Grown.before (h : Grown n p q) : q.before = p.before := by
  unfold Place.before
  rw [h.above]
  cases p.above <;> rfl

theorem Grown.isChild (h : Grown n p q) (r : Role) : q.isChild r = p.isChild r := by
  rw [Place.isChild, h.role, h.before, Place.isChild]

theorem Grown.address (h : Grown n p q) : q.address = p.address := by
  rw [Place.address, h.above, Place.address, List.map_map]
  rfl

theorem Grown.parent? (h : Grown n p q) :
    p.parent? = none ∧ q.parent? = none ∨
      ∃ c d, p.parent? = some c ∧ q.parent? = some d ∧ Grown n c d ∧
        d.focus.kind = c.focus.kind := by
  obtain ⟨focus, above⟩ := q
  obtain ⟨focus', _ | ⟨f, fs⟩⟩ := p
  · obtain rfl := h.above
    exact .inl ⟨rfl, rfl⟩
  · obtain rfl := h.above
    exact .inr ⟨_, _, rfl, rfl, ⟨rfl, rfl, rfl⟩, rfl⟩

theorem Grown.outside {t u : Tree} (hrole : u.role = t.role) (hstart : u.start = t.start)
    (fs : List Frame) :
    Grown n (outsideParentheses t fs) (outsideParentheses u (fs.map (Frame.widen n))) := by
  induction fs generalizing t u with
  | nil => exact ⟨hrole, hstart, rfl⟩
  | cons f fs ih =>
    rw [List.map_cons, outsideParentheses, outsideParentheses]
    by_cases hk : f.kind = .parenthesized
    · rw [if_pos hk, if_pos (by exact hk)]
      exact ih rfl rfl
    · rw [if_neg hk, if_neg (by exact hk)]
      exact ⟨hrole, hstart, rfl⟩

theorem Grown.exported (h : Grown n p q) : Grown n p.exported q.exported := by
  unfold Place.exported
  obtain ⟨hp, hq⟩ | ⟨c, d, hp, hq, hgrown, hk⟩ := h.parent?
  · rw [hp, hq]
    exact h
  · rw [hp, hq]
    simp only [hk]
    split
    · exact hgrown
    · exact h

theorem Grown.anchor (h : Grown n p q) (hk : q.focus.kind = p.focus.kind) :
    Grown n p.anchor q.anchor := by
  unfold Place.anchor
  have hfirst : q.isFirstDeclarator = p.isFirstDeclarator := by
    rw [isFirstDeclarator, h.before, isFirstDeclarator]
  rw [hk, hfirst]
  split
  · obtain ⟨hp, hq⟩ | ⟨c, d, hp, hq, hgrown, -⟩ := h.parent?
    · rw [hp, hq]
      exact h
    · rw [hp, hq]
      dsimp only
      split
      · exact hgrown.exported
      · exact h
  · exact h.exported

end

/-! ## One pair -/

/-- What is read off a tree about the function at `p`, in `source`, and at `q`, in `text`, is the
same. -/
structure Alike (source : List UInt8) (p : Place) (text : List UInt8) (q : Place) : Prop where
  kind : q.focus.kind = p.focus.kind
  context : q.bindingContext text = p.bindingContext source
  form : q.functionForm? text = p.functionForm? source
  value : ∀ d, p.IsValueOf d → ∃ d', q.IsValueOf d' ∧ d'.address = d.address ∧
    d'.focus.line text = d.focus.line source ∧
    d'.anchor.leadingComments text = d.anchor.leadingComments source

namespace Alike

theorem refl (source : List UInt8) (p : Place) : Alike source p source p :=
  ⟨rfl, rfl, rfl, fun d hd => ⟨d, hd, rfl, rfl, rfl⟩⟩

theorem trans {s₁ s₂ s₃ : List UInt8} {p q r : Place} (h₁ : Alike s₁ p s₂ q)
    (h₂ : Alike s₂ q s₃ r) : Alike s₁ p s₃ r where
  kind := h₂.kind.trans h₁.kind
  context := h₂.context.trans h₁.context
  form := h₂.form.trans h₁.form
  value d hd := by
    obtain ⟨d', hd', haddress, hline, hcomments⟩ := h₁.value d hd
    obtain ⟨d'', hd'', haddress', hline', hcomments'⟩ := h₂.value d' hd'
    exact ⟨d'', hd'', haddress'.trans haddress, hline'.trans hline, hcomments'.trans hcomments⟩

end Alike

end Place

namespace Parentheses

open Place

section
variable {b : Parentheses} {source : List UInt8} {p : Place}

theorem grown_outside (b : Parentheses) (p : Place) :
    Grown b.size (outsideParentheses p.focus p.above)
      (outsideParentheses (b.around p).focus (b.around p).above) := by
  rw [around, outsideParentheses, if_pos rfl]
  refine Grown.outside ?_ ?_ p.above <;> rfl

theorem isDefaultExport_around (b : Parentheses) (p : Place) :
    (b.around p).isDefaultExport = false := rfl

variable (hrow : Row 0 [p.root] source.length)
include hrow

theorem nameOf?_around :
    nameOf? (b.write source p) (b.around p).focus = nameOf? source p.focus := by
  have hchild : (b.around p).focus.childWithRole? .name =
      (p.focus.childWithRole? .name).map (shift b.opening.length) := by
    rw [Tree.childWithRole?, around, Tree.children, List.find?_map, Tree.childWithRole?]
    simp only [Function.comp_def, Tree.role_shift]
  rw [nameOf?, nameOf?, hchild]
  cases hname : p.focus.childWithRole? .name with
  | none => rfl
  | some n =>
    simp only [Option.map_some, text_inside hrow (List.mem_of_find?_eq_some hname)]

/-- Beside a value, the name is found among the other children. -/
theorem name_of_gap {f : Frame} (hf : f ∈ p.above) {t u : Tree} (hrole : u.role = t.role)
    (hvalue : t.role ≠ some .name) :
    Option.Rel (fun n m => m.kind = n.kind ∧ m.text (b.write source p) = n.text source)
      ((f.fill t).childWithRole? .name) (((f.widen b.size).fill u).childWithRole? .name) := by
  simp only [Tree.childWithRole?, Frame.fill, Frame.widen, Tree.children, List.find?_append]
  cases hname : f.before.reverse.find? (·.role == some .name) with
  | some n =>
    have hn := List.mem_reverse.1 (List.mem_of_find?_eq_some hname)
    exact .some ⟨rfl, (text_before hrow hf hn).1⟩
  | none =>
    have ht : (t.role == some .name) = false := by simpa using hvalue
    have hu : (u.role == some .name) = false := by rw [hrole, ht]
    rw [Option.none_or, Option.none_or, List.find?_cons, List.find?_cons, ht, hu, List.find?_map]
    simp only [Function.comp_def, Tree.role_shift]
    cases hname : f.after.find? (·.role == some .name) with
    | none => exact .none
    | some n =>
      exact .some ⟨Tree.kind_shift _ n, text_after hrow hf (List.mem_of_find?_eq_some hname)⟩

theorem bindingContext_around :
    (b.around p).bindingContext (b.write source p) = p.bindingContext source := by
  have hgrown := grown_outside b p
  have hsuffix := above_outsideParentheses p.focus p.above
  simp only [bindingContext]
  generalize outsideParentheses p.focus p.above = q at hgrown hsuffix
  generalize outsideParentheses (b.around p).focus (b.around p).above = q' at hgrown
  rw [hgrown.isChild]
  obtain ⟨t, _ | ⟨f, fs⟩⟩ := q <;> obtain ⟨u, above⟩ := q' <;> obtain rfl := hgrown.above
  · rfl
  · have hf : f ∈ p.above := hsuffix.subset List.mem_cons_self
    have hkind : ((f.widen b.size).fill u).kind = (f.fill t).kind := rfl
    simp only [parent?, List.map_cons, hkind]
    cases (f.fill t).kind with
    | declarator =>
      cases hvalue : isChild ⟨t, f :: fs⟩ .value with
      | false =>
        cases ((f.widen b.size).fill u).childWithRole? .name <;>
          cases (f.fill t).childWithRole? .name <;> rfl
      | true =>
        have hrole : t.role = some .value := by simpa using (Bool.and_eq_true_iff.1 hvalue).1
        have hname := name_of_gap (b := b) hrow hf hgrown.role (by rw [hrole]; decide)
        generalize (f.fill t).childWithRole? .name = n at hname
        generalize ((f.widen b.size).fill u).childWithRole? .name = m at hname
        cases hname with
        | none => rfl
        | some h => simp [h]
    | _ => rfl

/-- **One pair of parentheses** keeps what is read off the tree about the function in it. -/
theorem alike_around (hdefault : p.isDefaultExport = false) :
    Alike source p (b.write source p) (b.around p) where
  kind := rfl
  context := bindingContext_around hrow
  form := by
    have hkind : (b.around p).focus.kind = p.focus.kind := rfl
    simp only [functionForm?, hkind, hdefault, isDefaultExport_around, bindingContext_around hrow,
      nameOf?_around hrow]
  value d hd := by
    -- the two declarators are the parents of the outermost parentheses
    have hbound : ∃ name, p.bindingContext source = .bound name :=
      bindingContext_bound_iff.2 ⟨d, hd⟩
    obtain ⟨name, hname⟩ := hbound
    obtain ⟨d', hd'⟩ := bindingContext_bound_iff.1 ⟨name, (bindingContext_around hrow).trans hname⟩
    have hgrown : Grown b.size d d' := by
      obtain ⟨hnone, -⟩ | ⟨c, c', hc, hc', hgrown, -⟩ := (grown_outside b p).parent?
      · rw [hd.outside.1] at hnone
        cases hnone
      · cases hd.outside.1.symm.trans hc
        cases hd'.outside.1.symm.trans hc'
        exact hgrown
    have hsuffix : d.above <:+ p.above :=
      (above_parent? hd.outside.1).trans (above_outsideParentheses _ _)
    refine ⟨d', hd', hgrown.address, ?_, ?_⟩
    · obtain ⟨f, hf, hstart⟩ := exists_start_parent? hd.outside.1
      have hf := (above_outsideParentheses _ _).subset hf
      have hle := (Place.row_root.1 hrow).2.start_le hf
      refine Tree.line_congr hgrown.start fun i hi => ?_
      exact getElem?_write_before hrow (by omega)
    · have hanchor := hgrown.anchor (hd'.kind.trans hd.kind.symm)
      rw [leadingComments, leadingComments, hanchor.before]
      congr 1
      refine List.filterMap_congr fun t ht => ?_
      obtain ⟨f, hf, ht⟩ := exists_of_mem_before (List.takeWhile_subset _ ht)
      obtain ⟨htext, hline⟩ :=
        text_before (b := b) hrow (((above_anchor d).trans hsuffix).subset hf) ht
      rw [htext, hline]

end

/-! ## Any number of pairs -/

/-- Pairs of parentheses around the function at `p`, the last one innermost: the new source and the
place of the function there. -/
def parenthesize : List Parentheses → List UInt8 → Place → List UInt8 × Place
  | [], source, p => (source, p)
  | b :: bs, source, p => parenthesize bs (b.write source p) (b.around p)

theorem kinds_parenthesize (pairs : List Parentheses) (source : List UInt8) (p : Place) :
    (parenthesize pairs source p).2.above.map (·.kind) =
      List.replicate pairs.length .parenthesized ++ p.above.map (·.kind) := by
  induction pairs generalizing source p with
  | nil => rfl
  | cons b bs ih =>
    rw [parenthesize, ih, List.length_cons, List.replicate_succ', List.append_assoc]
    simp [around, Frame.widen]

theorem alike_parenthesize (pairs : List Parentheses) {source : List UInt8} {p : Place}
    (hrow : Row 0 [p.root] source.length) (hdefault : p.isDefaultExport = false) :
    Row 0 [(parenthesize pairs source p).2.root] (parenthesize pairs source p).1.length ∧
      Alike source p (parenthesize pairs source p).1 (parenthesize pairs source p).2 := by
  induction pairs generalizing source p with
  | nil => exact ⟨hrow, .refl source p⟩
  | cons b bs ih =>
    obtain ⟨hrow', halike⟩ := ih (row_around (b := b) hrow) (isDefaultExport_around b p)
    exact ⟨hrow', (alike_around hrow hdefault).trans halike⟩

end Parentheses

/-! ## The verdict -/

theorem FunctionForm.declared?_eq_none {form : FunctionForm} {c : BindingContext}
    (hform : form.context? = some c) (hc : ∀ name, c ≠ .bound name) : form.declared? = none := by
  cases form with
  | declaration n => cases hform
  | arrow c' =>
    cases hform
    cases c with
    | bound name => exact absurd rfl (hc name)
    | _ => rfl
  | expression n c' =>
    cases hform
    cases c with
    | bound name => exact absurd rfl (hc name)
    | _ => rfl

theorem FunctionNode.declaration?_congr {f g : FunctionNode} (hform : g.form = f.form)
    (hline : g.line = f.line ∨ f.form.declared? = none) : g.declaration? = f.declaration? := by
  unfold FunctionNode.declaration? FunctionNode.isAnonymousCallback
  rw [hform]
  rcases hline with hline | hnone
  · rw [hline]
  · rw [hnone]
    rfl

namespace Place

theorem context?_functionForm? {source : List UInt8} {p : Place} {form : FunctionForm}
    (hfunction : p.focus.kind = .functionExpression ∨ p.focus.kind = .arrowFunction)
    (hdefault : p.isDefaultExport = false) (hform : p.functionForm? source = some form) :
    form.context? = some (p.bindingContext source) := by
  unfold functionForm? at hform
  rcases hfunction with hk | hk
  · rw [hk, hdefault] at hform
    cases hform
    rfl
  · rw [hk] at hform
    cases hform
    rfl

/-- The declarators that two functions initialize, and what is reported of the functions by them. -/
structure SameReport (source : List UInt8) (p : Place) (f : FunctionNode) (text : List UInt8)
    (q : Place) (g : FunctionNode) : Prop where
  declarators : ∃ c d, p.Initializes c ∧ q.Initializes d ∧ d.address = c.address ∧
    f.line = c.focus.line source ∧ g.line = d.focus.line text
  line : g.line = f.line
  comments : g.leadingComments = f.leadingComments

theorem Alike.sameReport {source text : List UInt8} {p q : Place} (h : Alike source p text q)
    {form : FunctionForm} (hform : p.functionForm? source = some form) {c : Place}
    (hc : p.Initializes c) {f g : FunctionNode} (hf : p.functionNode? source = some f)
    (hg : q.functionNode? text = some g) : SameReport source p f text q g := by
  have hform' : q.functionForm? text = some form := h.form.trans hform
  obtain ⟨d, hd, haddress, hline, hcomments⟩ := h.value c hc.toIsValueOf
  have hd : q.Initializes d := ⟨hd, by rw [h.kind]; exact hc.function⟩
  rw [functionNode?, hform] at hf
  rw [functionNode?, hform'] at hg
  cases hf
  cases hg
  have hfouter : p.outer form = c := outer_of_initializes hform hc
  have hgouter : q.outer form = d := outer_of_initializes hform' hd
  constructor
  · exact ⟨c, d, hc, hd, haddress, by simp only [hfouter], by simp only [hgouter]⟩
  · simp only [hfouter, hgouter, hline]
  · simp only [hfouter, hgouter, hcomments]

end Place

namespace Parentheses

open Place

/-- **Redundant parentheses do not change the verdict** about a function expression or an arrow
function, unless a default export turns it into a declaration. -/
theorem verdict_parenthesize {source : List UInt8} {t : Tree} {p : Place}
    (hrow : Row 0 [t] source.length) (hp : p ∈ t.places [])
    (hfunction : p.focus.kind = .functionExpression ∨ p.focus.kind = .arrowFunction)
    (hdefault : p.isDefaultExport = false) (pairs : List Parentheses) :
    let source' := (parenthesize pairs source p).1
    let p' := (parenthesize pairs source p).2
    (p' ∈ p'.root.places [] ∧ Row 0 [p'.root] source'.length ∧
      p'.above.map (·.kind) =
        List.replicate pairs.length .parenthesized ++ p.above.map (·.kind)) ∧
    p'.bindingContext source' = p.bindingContext source ∧
    ∃ f f', p.functionNode? source = some f ∧ p'.functionNode? source' = some f' ∧
      f'.form = f.form ∧ f'.declaration? = f.declaration? ∧
      (∀ name, p.bindingContext source = .bound name → SameReport source p f source' p' f') ∧
      ∀ selector, (f'.declaration?.bind fun d => check d f'.leadingComments selector) =
        f.declaration?.bind fun d => check d f.leadingComments selector := by
  intro source' p'
  obtain rfl := Tree.mem_places_iff_root.1 hp
  obtain ⟨hrow', halike⟩ := alike_parenthesize pairs hrow hdefault
  refine ⟨⟨Tree.mem_places_iff_root.2 rfl, hrow', kinds_parenthesize pairs source p⟩,
    halike.context, ?_⟩
  have hkind : p.focus.kind.isFunction = true := by
    rcases hfunction with hk | hk <;> rw [hk] <;> rfl
  obtain ⟨f, hf⟩ := (Tree.exists_functionNode?_iff source).2 hkind
  obtain ⟨f', hf'⟩ := (Tree.exists_functionNode?_iff source' (p := p')).2
    (by rw [halike.kind, hkind])
  obtain ⟨form, hform, hfeq⟩ := Option.map_eq_some_iff.1 hf
  obtain ⟨form', hform', hfeq'⟩ := Option.map_eq_some_iff.1 hf'
  obtain rfl : form' = form := Option.some.inj (hform'.symm.trans (halike.form.trans hform))
  have hcontext := context?_functionForm? hfunction hdefault hform
  have hbound : ∀ name, p.bindingContext source = .bound name →
      SameReport source p f source' p' f' := by
    intro name hname
    obtain ⟨d, hd⟩ := (context_bound_iff hform).1 ⟨name, hcontext.trans (by rw [hname])⟩
    exact halike.sameReport hform hd hf hf'
  have hform : f'.form = f.form := by rw [← hfeq, ← hfeq']
  refine ⟨f, f', hf, hf', hform, ?_⟩
  by_cases hb : ∃ name, p.bindingContext source = .bound name
  · obtain ⟨name, hname⟩ := hb
    have hreport := hbound name hname
    have hdeclaration := FunctionNode.declaration?_congr hform (.inl hreport.line)
    refine ⟨hdeclaration, hbound, fun selector => ?_⟩
    rw [hdeclaration, hreport.comments]
  · -- a function that is bound to no name declares nothing
    have hnone : f.form.declared? = none := by
      rw [← hfeq]
      exact FunctionForm.declared?_eq_none hcontext fun name hname => hb ⟨name, hname⟩
    have hdeclaration := FunctionNode.declaration?_congr hform (.inr hnone)
    refine ⟨hdeclaration, hbound, fun selector => ?_⟩
    have hf : f.declaration? = none := by simp [FunctionNode.declaration?, hnone]
    rw [hdeclaration, hf]
    rfl

/-- Two pairs with a comment in each. -/
theorem verdict_parenthesize_two_pairs :
    let source := Text.Utf8.bytesOf "/** g */\nconst g = () => 2"
    let leaf (k : Kind) (r : Option Role) (a b : Nat) : Tree := .node k r a b []
    let p : Place := ⟨leaf .arrowFunction (some .value) 19 26,
      [⟨.declarator, none, 15, 26,
          [leaf (.token "=") none 17 18, leaf .identifier (some .name) 15 16], []⟩,
        ⟨.phrase "declaration", none, 9, 26, [leaf (.token "const") none 9 14], []⟩,
        ⟨.phrase "program", none, 0, 26, [leaf .comment none 0 8], []⟩]⟩
    ∃ pair : Parentheses, ∃ f f',
      (parenthesize [pair, pair] source p).1 =
        Text.Utf8.bytesOf "/** g */\nconst g = (\n/* a */(\n/* a */() => 2))" ∧
      p.functionNode? source = some f ∧
      (parenthesize [pair, pair] source p).2.functionNode? (parenthesize [pair, pair] source p).1 =
        some f' ∧
      f.declaration? = some ⟨.namedArrow, some "g", 2⟩ ∧ f'.declaration? = f.declaration? ∧
      f.leadingComments = [⟨.block, "* g ", 1⟩] ∧ f'.leadingComments = f.leadingComments := by
  intro source leaf p
  let pair : Parentheses :=
    { opening := Text.Utf8.bytesOf "(\n/* a */"
      closing := Text.Utf8.bytesOf ")"
      before := [leaf (.token "(") none 0 1, leaf .comment none 2 9]
      after := [leaf (.token ")") none 0 1]
      before_row := .cons (by decide) (.nil (by decide))
        (.cons (by decide) (.nil (by decide)) (.nil (by decide)))
      after_row := .cons (by decide) (.nil (by decide)) (.nil (by decide)) }
  have hrow : Row 0 [p.root] source.length := by
    refine Place.row_root.2 ⟨.nil (by decide), ?_, .nil (by decide), ?_, .nil (by decide), ?_,
      .nil (by decide), (by decide : 26 ≤ source.length)⟩
    · exact .cons (by decide) (.nil (by decide))
        (.cons (by decide) (.nil (by decide)) (.nil (by decide)))
    · exact .cons (by decide) (.nil (by decide)) (.nil (by decide))
    · exact .cons (by decide) (.nil (by decide)) (.nil (by decide))
  have hname : p.bindingContext source = .bound "g" := by decide +kernel
  have hsource : (parenthesize [pair, pair] source p).1 =
      Text.Utf8.bytesOf "/** g */\nconst g = (\n/* a */(\n/* a */() => 2))" := by decide +kernel
  have hconcrete : (p.functionNode? source).map (fun f => (f.declaration?, f.leadingComments)) =
      some (some ⟨.namedArrow, some "g", 2⟩, [⟨.block, "* g ", 1⟩]) := by decide +kernel
  obtain ⟨-, -, f, f', hf, hf', -, hdeclaration, hreport, -⟩ :=
    verdict_parenthesize hrow (Tree.mem_places_iff_root.2 rfl) (.inr rfl) rfl [pair, pair]
  rw [hf] at hconcrete
  obtain ⟨hd, hc⟩ := Prod.mk.inj (Option.some.inj hconcrete)
  exact ⟨pair, f, f', hsource, hf, hf', hd, hdeclaration, hc, (hreport "g" hname).comments⟩

end Parentheses

end DocScope
