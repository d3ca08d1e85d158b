import VideoComputer.Text.Hex
import VideoComputer.Text.Shapeless

/-!
# Quoted text and described values

A quoted text stands between double quotes; quotes, backslashes and characters that would not show
are written as escapes, so that every character of the quoted form has a shape. A described value is
its name followed by its labelled parts in braces.
-/

namespace VideoComputer.Text

/-- The least number of lower case hexadecimal digits that name the character, in braces. -/
def escapeByNumber (c : Char) : List Char :=
  ['\\', 'u', '\x7b'] ++ (hexAtLeast 1 c.toNat).map Char.toLower ++ ['\x7d']

def escape (c : Char) : List Char :=
  match c with
  | '"' => ['\\', '"']
  | '\\' => ['\\', '\\']
  | '\n' => ['\\', 'n']
  | '\r' => ['\\', 'r']
  | '\t' => ['\\', 't']
  | '\x00' => ['\\', '0']
  | c => if isShapeless c then escapeByNumber c else [c]

def quote (text : String) : String :=
  String.ofList ('"' :: text.toList.flatMap escape ++ ['"'])

/-- A list is described by its items between brackets. -/
def describeList (items : List String) : String := "[" ++ ", ".intercalate items ++ "]"

/-- A value with labelled parts. -/
def describeFields (name : String) (fields : List (String × String)) : String :=
  name ++ " \x7b " ++ ", ".intercalate (fields.map fun (label, value) ↦ label ++ ": " ++ value) ++
    " \x7d"

/-- A character of ASCII that is not a control. -/
def isVisible (c : Char) : Bool := 32 ≤ c.toNat && c.toNat < 127

/-- A visible character that is neither quote nor backslash. -/
def isPlain (c : Char) : Bool := isVisible c && c != '"' && c != '\\'

theorem isShapeless_of_isVisible {c : Char} (h : isVisible c) : isShapeless c = false := by
  simp only [isVisible, Bool.and_eq_true, decide_eq_true_eq] at h
  rw [isShapeless_of_lt h.2]
  exact decide_eq_false (by omega)

theorem escape_of_isPlain {c : Char} (h : isPlain c) : escape c = [c] := by
  simp only [isPlain, Bool.and_eq_true, bne_iff_ne] at h
  obtain ⟨⟨hvisible, hquote⟩, hbackslash⟩ := h
  have hshape := isShapeless_of_isVisible hvisible
  unfold escape
  split
  case h_1 => exact absurd rfl hquote
  case h_2 => exact absurd rfl hbackslash
  case h_7 =>
    rw [hshape]
    rfl
  all_goals exact absurd hvisible (by decide)

theorem flatMap_escape_of_isPlain {chars : List Char} (h : chars.all isPlain) :
    chars.flatMap escape = chars := by
  induction chars with
  | nil => rfl
  | cons c chars ih =>
    rw [List.all_cons, Bool.and_eq_true] at h
    rw [List.flatMap_cons, escape_of_isPlain h.1, ih h.2]
    rfl

/-- Plain text is quoted as it is. -/
theorem toList_quote_of_isPlain {text : String} (h : text.toList.all isPlain) :
    (quote text).toList = '"' :: text.toList ++ ['"'] := by
  rw [quote, String.toList_ofList, flatMap_escape_of_isPlain h]

/-- The marks that escapes are made of, hexadecimal digits aside. -/
def escapeMarks : List Char := ['"', '\\', 'n', 'r', 't', '0', 'u', '\x7b', '\x7d']

theorem isShapeless_of_mem_escapeMarks {mark : Char} (h : mark ∈ escapeMarks) :
    isShapeless mark = false := by
  have hmarks : escapeMarks.all isVisible := by decide
  exact isShapeless_of_isVisible (List.all_eq_true.mp hmarks mark h)

theorem isVisible_toLower_hexDigit : ∀ digit < 16, isVisible (hexDigit digit).toLower := by
  decide

theorem isShapeless_of_mem_escapeByNumber {c shown : Char} (h : shown ∈ escapeByNumber c) :
    isShapeless shown = false := by
  have hopens : ['\\', 'u', '\x7b'] ⊆ escapeMarks := by simp [escapeMarks]
  have hcloses : ['\x7d'] ⊆ escapeMarks := by simp [escapeMarks]
  rw [escapeByNumber, List.mem_append, List.mem_append] at h
  obtain (hopening | hdigits) | hclosing := h
  · exact isShapeless_of_mem_escapeMarks (hopens hopening)
  · obtain ⟨character, hcharacter, rfl⟩ := List.mem_map.mp hdigits
    obtain ⟨digit, hdigit, rfl⟩ := exists_of_mem_hexFixed hcharacter
    exact isShapeless_of_isVisible (isVisible_toLower_hexDigit digit hdigit)
  · exact isShapeless_of_mem_escapeMarks (hcloses hclosing)

theorem isShapeless_of_mem_escape {c shown : Char} (h : shown ∈ escape c) :
    isShapeless shown = false := by
  have hescaped {letter : Char} (hletter : letter ∈ escapeMarks) (h : shown ∈ ['\\', letter]) :
      isShapeless shown = false := by
    obtain rfl | hshown := List.mem_cons.mp h
    · exact isShapeless_of_mem_escapeMarks (by decide)
    · rw [List.mem_singleton.mp hshown]
      exact isShapeless_of_mem_escapeMarks hletter
  unfold escape at h
  split at h
  case h_7 =>
    split at h
    · exact isShapeless_of_mem_escapeByNumber h
    · rename_i hshape
      rw [List.mem_singleton.mp h]
      exact eq_false_of_ne_true hshape
  all_goals exact hescaped (by decide) h

/-- Whatever text is quoted, each character of the quoted form has a shape. -/
theorem isShapeless_of_mem_quote {text : String} {shown : Char} (h : shown ∈ (quote text).toList) :
    isShapeless shown = false := by
  have hquote : isShapeless '"' = false := isShapeless_of_mem_escapeMarks (by decide)
  rw [quote, String.toList_ofList, List.mem_append, List.mem_cons, List.mem_singleton] at h
  obtain (rfl | hinside) | rfl := h
  · exact hquote
  · obtain ⟨c, -, hshown⟩ := List.mem_flatMap.mp hinside
    exact isShapeless_of_mem_escape hshown
  · exact hquote

end VideoComputer.Text
