import DocScope.Docs.DocComment
import DocScope.Proofs.Text.Lines
import DocScope.Proofs.Text.Trim

/-!
# Entries of doc comments

A comment is cut into lines, and all texts of an entry but the examples are made of pieces of lines
with spaces between them.

* `blocks_oneLine`: the lines and blocks of a comment have no newline in them.
* `parse_oneLine`: so the description, the parameters and the result have none
  (`DocEntry.OneLine`). An example has its lines as they stand in the comment.
-/

namespace DocScope

structure ParamDoc.OneLine (p : ParamDoc) : Prop where
  name : DocScope.OneLine p.name.toList
  type : DocScope.OneLine p.type.toList
  description : DocScope.OneLine p.description.toList

structure ReturnDoc.OneLine (r : ReturnDoc) : Prop where
  type : DocScope.OneLine r.type.toList
  description : DocScope.OneLine r.description.toList

/-- The texts of an entry, but for its examples, are lines. -/
structure DocEntry.OneLine (e : DocEntry) : Prop where
  name : DocScope.OneLine e.name.toList
  description : DocScope.OneLine e.description.toList
  params : ∀ p ∈ e.params, p.OneLine
  returns : ∀ r ∈ e.returns, r.OneLine
  file : DocScope.OneLine e.file.toList

namespace DocComment

/-! ## Pieces of lines -/

theorem cleanLine_sublist (raw : List Char) : (cleanLine raw).Sublist raw := by
  refine List.Sublist.trans ?_ (Text.trimStart_sublist raw)
  unfold cleanLine
  generalize Text.trimStart raw = t
  dsimp only
  split
  · exact ((List.Sublist.refl _).cons _).cons _
  · exact (List.Sublist.refl _).cons _
  · exact List.Sublist.refl _

theorem tagged?_sublist {l rest : List Char} {tag : Tag} (h : tagged? l = some (tag, rest)) :
    rest.Sublist l := by
  refine List.Sublist.trans ?_ (Text.trim_sublist l)
  unfold tagged? at h
  split at h
  · next r hr =>
    obtain ⟨-, rfl⟩ := Prod.mk.inj (Option.some.inj h)
    rw [hr]
    refine (Text.trim_sublist _).trans (List.Sublist.cons _ ?_)
    exact (List.drop_sublist _ _).trans (List.dropWhile_sublist _)
  · cases h

theorem type?_sublist {s t r : List Char} (h : type? s = some (t, r)) :
    t.Sublist s ∧ r.Sublist s := by
  unfold type? at h
  split at h
  · next s =>
    split at h
    · next c rest hr =>
      obtain ⟨rfl, rfl⟩ := Prod.mk.inj (Option.some.inj h)
      have hrest : (c :: rest).Sublist s := hr ▸ List.dropWhile_sublist _
      exact ⟨(List.takeWhile_sublist _).cons _,
        (Text.trimStart_sublist rest).trans ((List.sublist_of_cons_sublist hrest).cons _)⟩
    · cases h
  · cases h

theorem skipHyphen_sublist (s : List Char) : (skipHyphen s).Sublist s := by
  unfold skipHyphen
  split
  · exact (Text.trimStart_sublist _).cons _
  · exact List.Sublist.refl _

theorem bareName_sublist (name : List Char) : (bareName name).Sublist name := by
  unfold bareName
  refine (Text.trim_sublist _).trans ((List.takeWhile_sublist _).trans ?_)
  exact (Text.dropEnd_prefix _ _).sublist.trans (List.dropWhile_sublist _)

/-- A bracket is added to a name only where the text has one. -/
theorem paramName?_oneLine {s n r : List Char} (h : paramName? s = some (n, r)) (hs : OneLine s) :
    OneLine n ∧ OneLine r := by
  have hword : (if s.takeWhile (!Text.isBlank ·) = [] then none
      else some (s.takeWhile (!Text.isBlank ·), s.dropWhile (!Text.isBlank ·))) = some (n, r) →
      OneLine n ∧ OneLine r := by
    intro hw
    split at hw
    · cases hw
    · obtain ⟨rfl, rfl⟩ := Prod.mk.inj (Option.some.inj hw)
      exact ⟨hs.of_sublist (List.takeWhile_sublist _), hs.of_sublist (List.dropWhile_sublist _)⟩
  unfold paramName? at h
  dsimp only at h
  split at h
  · next s =>
    split at h
    · next c rest hr =>
      obtain ⟨rfl, rfl⟩ := Prod.mk.inj (Option.some.inj h)
      have hrest : (c :: rest).Sublist s := hr ▸ List.dropWhile_sublist _
      have hs' : OneLine s := hs.of_sublist (List.sublist_cons_self _ _)
      refine ⟨OneLine.cons (by decide) (OneLine.append ?_ (by decide : '\n' ∉ [']'])),
        hs'.of_sublist (List.sublist_of_cons_sublist hrest)⟩
      exact hs'.of_sublist (List.takeWhile_sublist _)
    · exact hword h
  · exact hword h

/-! ## Texts of an entry -/

theorem joinWords_oneLine {ws : List (List Char)} (h : ∀ w ∈ ws, OneLine w) :
    OneLine (joinWords ws) := by
  unfold joinWords
  induction ws with
  | nil => exact OneLine.nil
  | cons w ws ih =>
    have ih := ih fun v hv => h v (List.mem_cons_of_mem _ hv)
    have hw := h w List.mem_cons_self
    cases ws with
    | nil => simpa using hw
    | cons v ws =>
      rw [List.intercalate_cons_cons]
      exact OneLine.append (OneLine.append hw (by decide : '\n' ∉ [' '])) ih

theorem trim_oneLine {ls : List (List Char)} (h : ∀ l ∈ ls, OneLine l) :
    ∀ l ∈ ls.map Text.trim, OneLine l := by
  intro l hl
  obtain ⟨raw, hraw, rfl⟩ := List.mem_map.1 hl
  exact (h raw hraw).of_sublist (Text.trim_sublist raw)

theorem filled_oneLine {ls : List (List Char)} (h : ∀ l ∈ ls, OneLine l) :
    ∀ l ∈ filled ls, OneLine l :=
  fun l hl => trim_oneLine h l (List.mem_filter.1 hl).1

structure Block.OneLine (b : Block) : Prop where
  rest : DocScope.OneLine b.rest
  lines : ∀ l ∈ b.lines, DocScope.OneLine l

/-- The lines of a comment keep apart in its blocks. -/
theorem blocks_oneLine {ls : List (List Char)} (h : ∀ l ∈ ls, OneLine l) :
    (∀ l ∈ (blocks ls).1, OneLine l) ∧ ∀ b ∈ (blocks ls).2, b.OneLine := by
  induction ls with
  | nil => simp [blocks]
  | cons l ls ih =>
    obtain ⟨hfree, hbs⟩ := ih fun x hx => h x (List.mem_cons_of_mem _ hx)
    have hl := h l List.mem_cons_self
    unfold blocks
    dsimp only
    split
    · next tag rest ht =>
      refine ⟨by simp, fun b hb => ?_⟩
      rcases List.mem_cons.1 hb with rfl | hb
      · exact ⟨hl.of_sublist (tagged?_sublist ht), hfree⟩
      · exact hbs b hb
    · refine ⟨fun x hx => ?_, hbs⟩
      rcases List.mem_cons.1 hx with rfl | hx
      · exact hl
      · exact hfree x hx

theorem Block.OneLine.rest_filled {b : Block} (h : b.OneLine) :
    ∀ l ∈ b.rest :: filled b.lines, DocScope.OneLine l := by
  intro l hl
  rcases List.mem_cons.1 hl with rfl | hl
  · exact h.rest
  · exact filled_oneLine h.lines l hl

theorem Block.OneLine.text {b : Block} (h : b.OneLine) : DocScope.OneLine b.text :=
  joinWords_oneLine fun l hl => h.rest_filled l (List.mem_filter.1 hl).1

theorem summary_oneLine {free : List (List Char)} (h : ∀ l ∈ free, OneLine l) :
    OneLine (summary free) := by
  refine joinWords_oneLine fun l hl => trim_oneLine h l ?_
  exact (List.dropWhile_sublist _).subset ((List.takeWhile_sublist _).subset hl)

theorem description_oneLine {free : List (List Char)} {bs : List Block}
    (hfree : ∀ l ∈ free, OneLine l) (hbs : ∀ b ∈ bs, b.OneLine) :
    OneLine (description free bs) := by
  unfold description
  split
  · exact summary_oneLine hfree
  · refine OneLine.of_sublist (joinWords_oneLine fun l hl => ?_) (Text.trim_sublist _)
    obtain ⟨b, hb, hl⟩ := List.mem_flatMap.1 hl
    exact (hbs b (List.mem_filter.1 hb).1).rest_filled l hl

theorem namedParam?_oneLine {t s : List Char} {p : ParamDoc} (h : namedParam? t s = some p)
    (ht : OneLine t) (hs : OneLine s) : p.OneLine := by
  obtain ⟨⟨n, r⟩, hn, rfl⟩ := Option.map_eq_some_iff.1 h
  obtain ⟨hname, hr⟩ := paramName?_oneLine hn hs
  constructor <;> dsimp only <;> rw [String.toList_ofList]
  · exact hname.of_sublist (bareName_sublist n)
  · exact ht.of_sublist (Text.trim_sublist t)
  · exact hr.of_sublist
      ((Text.trim_sublist _).trans ((skipHyphen_sublist _).trans (Text.trimStart_sublist r)))

theorem param?_oneLine {s : List Char} {p : ParamDoc} (h : param? s = some p) (hs : OneLine s) :
    p.OneLine := by
  unfold param? at h
  split at h
  · next t r ht =>
    obtain ⟨hts, hrs⟩ := type?_sublist ht
    rcases Option.or_eq_some_iff.1 h with h | ⟨-, h⟩
    · exact namedParam?_oneLine h (hs.of_sublist hts) (hs.of_sublist hrs)
    · exact namedParam?_oneLine h OneLine.nil hs
  · exact namedParam?_oneLine h OneLine.nil hs

theorem returnDoc_oneLine {s : List Char} (hs : OneLine s) : (returnDoc s).OneLine := by
  have hparts : OneLine ((type? s).getD ([], s)).1 ∧ OneLine ((type? s).getD ([], s)).2 := by
    cases ht : type? s with
    | none => exact ⟨OneLine.nil, hs⟩
    | some tr =>
      obtain ⟨hts, hrs⟩ := type?_sublist (t := tr.1) (r := tr.2) ht
      exact ⟨hs.of_sublist hts, hs.of_sublist hrs⟩
  constructor <;> dsimp only [returnDoc] <;> rw [String.toList_ofList]
  · exact hparts.1.of_sublist (Text.trim_sublist _)
  · exact hparts.2.of_sublist ((Text.trim_sublist _).trans (skipHyphen_sublist _))

/-! ## Entries -/

theorem entryOf_oneLine {name file : String} {free : List (List Char)} {bs : List Block}
    (hname : OneLine name.toList) (hfile : OneLine file.toList)
    (hfree : ∀ l ∈ free, OneLine l) (hbs : ∀ b ∈ bs, b.OneLine) :
    (entryOf name file free bs).OneLine := by
  refine ⟨hname, ?_, fun p hp => ?_, fun r hr => ?_, hfile⟩
  · rw [entryOf, String.toList_ofList]
    exact description_oneLine hfree hbs
  · obtain ⟨b, hb, hp⟩ := List.mem_filterMap.1 hp
    exact param?_oneLine hp (hbs b (List.mem_filter.1 hb).1).text
  · obtain ⟨b, hb, rfl⟩ := Option.map_eq_some_iff.1 hr
    exact returnDoc_oneLine (hbs b (List.mem_filter.1 (List.mem_of_getLast? hb)).1).text

/-- **An entry is made of lines** if the name and the file it is given are. -/
theorem parse_oneLine {name file : String} (hname : OneLine name.toList)
    (hfile : OneLine file.toList) (c : Comment) : (parse name file c).OneLine := by
  have hlines : ∀ l ∈ (Text.lines c.value.toList).map cleanLine, OneLine l := by
    intro l hl
    obtain ⟨raw, hraw, rfl⟩ := List.mem_map.1 hl
    exact (show OneLine raw from Text.newline_not_mem_lines hraw).of_sublist (cleanLine_sublist raw)
  obtain ⟨hfree, hbs⟩ := blocks_oneLine hlines
  exact entryOf_oneLine hname hfile hfree hbs

end DocComment

/-- An entry of some doc comment, of a declaration whose name is a line, in a file whose name is. -/
def DocEntry.FromComment (e : DocEntry) : Prop :=
  ∃ (name file : String) (c : Comment), DocScope.OneLine name.toList ∧
    DocScope.OneLine file.toList ∧ e = DocComment.parse name file c

theorem DocEntry.fromComment_parse {name file : String} (hname : DocScope.OneLine name.toList)
    (hfile : DocScope.OneLine file.toList) (c : Comment) :
    (DocComment.parse name file c).FromComment := ⟨name, file, c, hname, hfile, rfl⟩

theorem DocEntry.FromComment.oneLine {e : DocEntry} (h : e.FromComment) : e.OneLine := by
  obtain ⟨name, file, c, hname, hfile, rfl⟩ := h
  exact DocComment.parse_oneLine hname hfile c

end DocScope
