import DocScope.Proofs.Docs.Shares
import DocScope.Tree.Functions
import Mathlib.Data.List.Forall2
import Mathlib.Data.List.Nodup

/-!
# One function for every node of a function kind

A node of a tree is known by its address, the numbers of the children on the way down to it
(`Place.down?`). The traversal comes by every node once:

* `Tree.mem_places`: the places of a tree are those that addresses lead to;
* `Place.address_of_down?`, `Tree.nodup_addresses`: no two of them have the same address;
* `Tree.functions_one_per_node`: the functions of a tree are those of its nodes of a function kind.
-/

namespace DocScope

/-- The kinds of function-like nodes. -/
def Kind.isFunction : Kind → Bool
  | .functionDeclaration => true
  | .generatorDeclaration => true
  | .functionExpression => true
  | .arrowFunction => true
  | _ => false

namespace Place

/-- One step down, to the child with the given number. -/
def child? (p : Place) (i : Nat) : Option Place :=
  match p.focus with
  | .node k r s e cs =>
    cs[i]?.map fun c => ⟨c, ⟨k, r, s, e, (cs.take i).reverse, cs.drop (i + 1)⟩ :: p.above⟩

/-- The place that an address leads to. -/
def down? (p : Place) : List Nat → Option Place
  | [] => some p
  | i :: address => (p.child? i).bind (·.down? address)

/-- The numbers of the children on the way down to a place. -/
def address (p : Place) : List Nat := (p.above.map (·.before.length)).reverse

/-- The whole tree around a place. -/
def root (p : Place) : Tree := p.above.foldl (fun t f => f.fill t) p.focus

theorem child?_append (above : List Frame) (k : Kind) (r : Option Role) (s e : Nat)
    (before : List Tree) (c : Tree) (after : List Tree) :
    child? ⟨.node k r s e (before ++ c :: after), above⟩ before.length =
      some ⟨c, ⟨k, r, s, e, before.reverse, after⟩ :: above⟩ := by
  simp [child?]

/-- A step down leads to a child. -/
theorem child?_eq_some {p q : Place} {i : Nat} (h : p.child? i = some q) :
    ∃ k r s e before c after, p.focus = .node k r s e (before ++ c :: after) ∧
      before.length = i ∧ q = ⟨c, ⟨k, r, s, e, before.reverse, after⟩ :: p.above⟩ := by
  obtain ⟨⟨k, r, s, e, cs⟩, above⟩ := p
  obtain ⟨c, hc, rfl⟩ := Option.map_eq_some_iff.1 h
  obtain ⟨hi, hc⟩ := List.getElem?_eq_some_iff.1 hc
  refine ⟨k, r, s, e, cs.take i, c, cs.drop (i + 1), ?_, by simp; omega, rfl⟩
  rw [← hc, ← List.drop_eq_getElem_cons hi, List.take_append_drop]

theorem address_of_down? {p q : Place} {address : List Nat} (h : p.down? address = some q) :
    q.address = p.address ++ address := by
  induction address generalizing p with
  | nil =>
    cases h
    simp
  | cons i address ih =>
    obtain ⟨c, hc, hq⟩ := Option.bind_eq_some_iff.1 h
    obtain ⟨k, r, s, e, before, t, after, -, hlen, rfl⟩ := child?_eq_some hc
    rw [ih hq]
    simp [Place.address, hlen]

theorem down?_append (p : Place) (xs ys : List Nat) :
    p.down? (xs ++ ys) = (p.down? xs).bind (·.down? ys) := by
  induction xs generalizing p with
  | nil => rfl
  | cons i xs ih => simp [down?, ih, Option.bind_assoc]

theorem root_of_down? {p q : Place} {address : List Nat} (h : p.down? address = some q) :
    q.root = p.root := by
  induction address generalizing p with
  | nil =>
    cases h
    rfl
  | cons i address ih =>
    obtain ⟨c, hc, hq⟩ := Option.bind_eq_some_iff.1 h
    obtain ⟨k, r, s, e, before, t, after, hfocus, -, rfl⟩ := child?_eq_some hc
    rw [ih hq]
    simp [root, Frame.fill, hfocus]

theorem down?_root (p : Place) : down? ⟨p.root, []⟩ p.address = some p := by
  obtain ⟨focus, above⟩ := p
  induction above generalizing focus with
  | nil => rfl
  | cons f fs ih =>
    have hparent := ih (f.fill focus)
    simp only [Place.address, List.map_cons, List.reverse_cons, down?_append] at hparent ⊢
    rw [root, List.foldl_cons]
    rw [root] at hparent
    rw [hparent, Option.bind_some, down?, Frame.fill]
    rw [← List.length_reverse, child?_append, List.reverse_reverse]
    rfl

end Place

/-! ## The traversal -/

namespace Tree

open Place (down?)

theorem mem_placesOfChildren {p : Place} {above : List Frame} {k : Kind} {r : Option Role}
    {s e : Nat} {before cs : List Tree} :
    p ∈ placesOfChildren above k r s e before cs ↔
      ∃ elder c after, cs = elder ++ c :: after ∧
        p ∈ c.places (⟨k, r, s, e, elder.reverse ++ before, after⟩ :: above) := by
  induction cs generalizing before with
  | nil => simp [placesOfChildren]
  | cons c cs ih =>
    rw [placesOfChildren, List.mem_append, ih]
    constructor
    · rintro (hp | ⟨elder, d, after, rfl, hp⟩)
      · exact ⟨[], c, cs, rfl, hp⟩
      · exact ⟨c :: elder, d, after, rfl, by simpa using hp⟩
    · rintro ⟨elder, d, after, heq, hp⟩
      cases elder with
      | nil =>
        cases heq
        exact .inl hp
      | cons b elder =>
        cases heq
        exact .inr ⟨elder, d, after, rfl, by simpa using hp⟩

theorem mem_places_of_down? {p : Place} {address : List Nat} {t : Tree} {above : List Frame}
    (h : down? ⟨t, above⟩ address = some p) : p ∈ t.places above := by
  induction address generalizing t above with
  | nil =>
    cases h
    cases t
    exact List.mem_cons_self
  | cons i address ih =>
    obtain ⟨q, hq, hp⟩ := Option.bind_eq_some_iff.1 h
    obtain ⟨k, r, s, e, before, c, after, rfl, -, rfl⟩ := Place.child?_eq_some hq
    refine List.mem_cons_of_mem _ (mem_placesOfChildren.2 ⟨before, c, after, rfl, ?_⟩)
    simpa using ih hp

theorem exists_down?_of_mem_places {p : Place} : ∀ {t : Tree} {above : List Frame},
    p ∈ t.places above → ∃ address, down? ⟨t, above⟩ address = some p
  | .node k r s e cs, above, h => by
    rcases List.mem_cons.1 h with rfl | h
    · exact ⟨[], rfl⟩
    · obtain ⟨before, c, after, hcs, hp⟩ := mem_placesOfChildren.1 h
      have hlt : sizeOf c < sizeOf cs := List.sizeOf_lt_of_mem (by simp [hcs])
      obtain ⟨address, hdown⟩ := exists_down?_of_mem_places hp
      refine ⟨before.length :: address, ?_⟩
      rw [down?, hcs, Place.child?_append]
      simpa using hdown
termination_by t => t

theorem mem_places {p : Place} {t : Tree} {above : List Frame} :
    p ∈ t.places above ↔ ∃ address, down? ⟨t, above⟩ address = some p :=
  ⟨exists_down?_of_mem_places, fun ⟨_, h⟩ => mem_places_of_down? h⟩

theorem mem_places_iff_root {p : Place} {t : Tree} : p ∈ t.places [] ↔ p.root = t := by
  rw [mem_places]
  constructor
  · rintro ⟨address, h⟩
    exact Place.root_of_down? h
  · rintro rfl
    exact ⟨_, Place.down?_root p⟩

theorem address_of_mem_places {p : Place} {t : Tree} {above : List Frame}
    (h : p ∈ t.places above) : ∃ rest, p.address = Place.address ⟨t, above⟩ ++ rest := by
  obtain ⟨rest, hdown⟩ := mem_places.1 h
  exact ⟨rest, Place.address_of_down? hdown⟩

theorem address_of_mem_placesOfChildren {p : Place} {above : List Frame} {k : Kind}
    {r : Option Role} {s e : Nat} {before cs : List Tree}
    (h : p ∈ placesOfChildren above k r s e before cs) (t : Tree) :
    ∃ i rest, before.length ≤ i ∧ p.address = Place.address ⟨t, above⟩ ++ i :: rest := by
  obtain ⟨elder, c, after, -, hp⟩ := mem_placesOfChildren.1 h
  obtain ⟨rest, hrest⟩ := address_of_mem_places hp
  exact ⟨elder.length + before.length, rest, by omega, by simpa [Place.address] using hrest⟩

theorem nodup_addressesOfChildren {above : List Frame} {k : Kind} {r : Option Role} {s e : Nat}
    {before cs : List Tree} (h : ∀ c ∈ cs, ∀ above, ((c.places above).map Place.address).Nodup) :
    ((placesOfChildren above k r s e before cs).map Place.address).Nodup := by
  induction cs generalizing before with
  | nil => simp [placesOfChildren]
  | cons c cs ih =>
    obtain ⟨hc, hcs⟩ := List.forall_mem_cons.1 h
    rw [placesOfChildren, List.map_append]
    refine (hc _).append (ih hcs) fun address hfirst hlater => ?_
    -- the ways down to the two places part here
    obtain ⟨p, hp, rfl⟩ := List.mem_map.1 hfirst
    obtain ⟨q, hq, heq⟩ := List.mem_map.1 hlater
    obtain ⟨rest, hrest⟩ := address_of_mem_places hp
    obtain ⟨i, rest', hi, hrest'⟩ := address_of_mem_placesOfChildren hq c
    rw [hrest', hrest] at heq
    simp only [Place.address, List.map_cons, List.reverse_cons, List.append_assoc,
      List.append_cancel_left_eq, List.singleton_append, List.cons.injEq] at heq
    simp only [List.length_cons] at hi
    omega

theorem nodup_addresses : ∀ (t : Tree) (above : List Frame),
    ((t.places above).map Place.address).Nodup
  | .node k r s e cs, above => by
    have hchildren : ∀ c ∈ cs, ∀ above, ((c.places above).map Place.address).Nodup := by
      intro c hc
      have hlt : sizeOf c < sizeOf cs := List.sizeOf_lt_of_mem hc
      exact fun above => nodup_addresses c above
    rw [places, List.map_cons, List.nodup_cons]
    refine ⟨fun hmem => ?_, nodup_addressesOfChildren hchildren⟩
    obtain ⟨p, hp, heq⟩ := List.mem_map.1 hmem
    obtain ⟨i, rest, -, hrest⟩ := address_of_mem_placesOfChildren hp (.node k r s e cs)
    simp [hrest] at heq
termination_by t => t

/-! ## The functions -/

theorem exists_functionNode?_iff (source : List UInt8) {p : Place} :
    (∃ f, p.functionNode? source = some f) ↔ p.focus.kind.isFunction = true := by
  rw [← Option.isSome_iff_exists, Place.functionNode?, Option.isSome_map, Place.functionForm?]
  cases p.focus.kind with
  | functionExpression =>
    simp only [Kind.isFunction, iff_true]
    split <;> rfl
  | _ => simp [Kind.isFunction]

/-- The nodes that hold a function, each with its function. -/
def functionPlaces (source : List UInt8) (t : Tree) : List (Place × FunctionNode) :=
  (t.places []).filterMap fun p => (p.functionNode? source).map fun f => (p, f)

theorem mem_functionPlaces {source : List UInt8} {t : Tree} {p : Place} {f : FunctionNode} :
    (p, f) ∈ t.functionPlaces source ↔
      (∃ address, down? ⟨t, []⟩ address = some p) ∧ p.functionNode? source = some f := by
  rw [functionPlaces, List.mem_filterMap, ← mem_places]
  constructor
  · rintro ⟨q, hq, heq⟩
    obtain ⟨g, hg, heq⟩ := Option.map_eq_some_iff.1 heq
    cases heq
    exact ⟨hq, hg⟩
  · rintro ⟨hp, hf⟩
    exact ⟨p, hp, by rw [hf]; rfl⟩

theorem nodup_functionPlaces (source : List UInt8) (t : Tree) :
    ((t.functionPlaces source).map (·.1.address)).Nodup := by
  have hplaces := List.pairwise_map.1 (nodup_addresses t [])
  refine List.pairwise_map.2 (hplaces.filterMap _ ?_)
  rintro p q hne x hx y hy
  obtain ⟨_, -, rfl⟩ := Option.map_eq_some_iff.1 hx
  obtain ⟨_, -, rfl⟩ := Option.map_eq_some_iff.1 hy
  exact hne

theorem map_snd_functionPlaces (source : List UInt8) (t : Tree) :
    (t.functionPlaces source).map Prod.snd = (t.places []).filterMap (·.functionNode? source) := by
  simp [functionPlaces, List.map_filterMap, Function.comp_def]

/-- **A tree has one function for every node of a function kind**, and no other: the function of the
node, with its span. They are ordered by where they start. -/
theorem functions_one_per_node (source : List UInt8) (t : Tree) :
    ∃ addresses : List (List Nat), addresses.Nodup ∧
      (∀ address, address ∈ addresses ↔
        ∃ p, down? ⟨t, []⟩ address = some p ∧ p.focus.kind.isFunction = true) ∧
      List.Forall₂ (fun address f => ∃ p, down? ⟨t, []⟩ address = some p ∧
          p.functionNode? source = some f ∧ f.span = .ofOffsets source p.focus.start p.focus.stop)
        addresses (t.functions source) ∧
      InSourceOrder (t.functions source) := by
  let sorted := (t.functionPlaces source).mergeSort
    fun x y => x.2.span.startByte ≤ y.2.span.startByte
  have hperm : sorted.Perm (t.functionPlaces source) := List.mergeSort_perm _ _
  have hfunctions : t.functions source = sorted.map Prod.snd := by
    rw [functions, ← map_snd_functionPlaces]
    refine (List.map_mergeSort ?_).symm
    exact fun _ _ _ _ => rfl
  have hmem : ∀ p f, (p, f) ∈ sorted ↔
      (∃ address, down? ⟨t, []⟩ address = some p) ∧ p.functionNode? source = some f := by
    intro p f
    rw [hperm.mem_iff, mem_functionPlaces]
  have haddress : ∀ {p address}, down? ⟨t, []⟩ address = some p → p.address = address :=
    fun h => by simpa [Place.address] using Place.address_of_down? h
  refine ⟨sorted.map (·.1.address), ?_, fun address => ?_, ?_, functions_inSourceOrder source t⟩
  · exact (hperm.map _).nodup_iff.2 (nodup_functionPlaces source t)
  · rw [List.mem_map]
    constructor
    · rintro ⟨⟨p, f⟩, hx, rfl⟩
      obtain ⟨⟨address, hdown⟩, hf⟩ := (hmem p f).1 hx
      exact ⟨p, by rw [haddress hdown, hdown], (exists_functionNode?_iff source).1 ⟨f, hf⟩⟩
    · rintro ⟨p, hdown, hkind⟩
      obtain ⟨f, hf⟩ := (exists_functionNode?_iff source).2 hkind
      exact ⟨(p, f), (hmem p f).2 ⟨⟨address, hdown⟩, hf⟩, haddress hdown⟩
  · rw [hfunctions, List.forall₂_map_left_iff, List.forall₂_map_right_iff, List.forall₂_same]
    rintro ⟨p, f⟩ hx
    obtain ⟨⟨address, hdown⟩, hf⟩ := (hmem p f).1 hx
    refine ⟨p, by rw [haddress hdown, hdown], hf, ?_⟩
    obtain ⟨form, -, rfl⟩ := Option.map_eq_some_iff.1 hf
    rfl

end Tree

end DocScope
