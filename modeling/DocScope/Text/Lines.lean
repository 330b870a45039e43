import DocScope.Text.Blank

/-!
# Lines of a text

* `splitInclusive` cuts a text after every newline; the pieces concatenate to the text;
* `lines` is the same cut without the line ends: one newline, and a carriage return right before
  it, are removed. A carriage return at the very end of the text, with no newline after it, stays.
-/

namespace DocScope.Text

/-- Cuts a text after every newline. No piece is empty. -/
def splitInclusive : List Char → List (List Char)
  | [] => []
  | c :: cs =>
    if c = '\n' then [c] :: splitInclusive cs
    else
      match splitInclusive cs with
      | [] => [[c]]
      | l :: ls => (c :: l) :: ls

/-- Removes a final newline and a carriage return right before it. -/
def chomp (l : List Char) : List Char :=
  match stripEnd? ['\n'] l with
  | none => l
  | some l => (stripEnd? ['\r'] l).getD l

/-- The lines of a text without their line ends. -/
def lines (s : List Char) : List (List Char) := (splitInclusive s).map chomp

/-- Lines put together with a newline between neighbours. -/
def joinLines (ls : List (List Char)) : List Char := ['\n'].intercalate ls

/-- Cutting a text loses nothing. -/
theorem flatten_splitInclusive (s : List Char) : (splitInclusive s).flatten = s := by
  induction s with
  | nil => rfl
  | cons c cs ih =>
    unfold splitInclusive
    split
    · rw [List.flatten_cons, ih, List.singleton_append]
    · cases h : splitInclusive cs with
      | nil => rw [h] at ih; rw [← ih]; rfl
      | cons l ls => rw [h] at ih; rw [← ih]; rfl

end DocScope.Text
