/-
**White space.**

The characters with the Unicode property White_Space, and the operations that drop or split at
them.

* `trimStart_eq_self`: text that does not start with white space is its own trimming;
* `words`: the maximal runs of other characters, none of them empty (`words_ne_nil`).
-/

namespace DataBind.Text

/-- The characters with the property White_Space. -/
def isBlank (c : Char) : Bool :=
  let point := c.toNat
  if point < 0x80 then point == 0x20 || (0x09 ≤ point && point ≤ 0x0d)
  else
    point == 0x85 || point == 0xa0 || point == 0x1680 || (0x2000 ≤ point && point ≤ 0x200a) ||
      point == 0x2028 || point == 0x2029 || point == 0x202f || point == 0x205f || point == 0x3000

/-- Text without its leading white space. -/
def trimStart (text : List Char) : List Char :=
  text.dropWhile isBlank

/-- Text without its trailing white space. -/
def trimEnd (text : List Char) : List Char :=
  (text.reverse.dropWhile isBlank).reverse

/-- Text without white space at either end. -/
def trim (text : List Char) : List Char :=
  trimEnd (trimStart text)

/-- A string without white space at either end. -/
def trimmed (text : String) : String :=
  String.ofList (trim text.toList)

/-- The runs of characters other than white space, in order. -/
def wordsOf : List Char → List (List Char)
  | [] => []
  | c :: rest =>
    if isBlank c then wordsOf rest
    else
      match rest, wordsOf rest with
      | next :: _, word :: others =>
        if isBlank next then [c] :: word :: others else (c :: word) :: others
      | _, others => [c] :: others

/-- The words of a string: its runs of characters other than white space. -/
def words (text : String) : List String :=
  (wordsOf text.toList).map String.ofList

theorem trimStart_length_le (text : List Char) : (trimStart text).length ≤ text.length :=
  (List.dropWhile_suffix _).length_le

/-- Trimming the start keeps text that starts with another character. -/
theorem trimStart_eq_self {c : Char} (rest : List Char) (solid : isBlank c = false) :
    trimStart (c :: rest) = c :: rest := by
  simp [trimStart, solid]

/-- No word is empty. -/
theorem words_ne_nil (text : List Char) : ∀ word ∈ wordsOf text, word ≠ [] := by
  induction text with
  | nil => simp [wordsOf]
  | cons c rest ih =>
    unfold wordsOf
    split
    · exact ih
    · split
      · rename_i next _ word others _
        split <;> simp_all
      · intro word member
        rcases List.mem_cons.mp member with same | member
        · simp [same]
        · simp_all

end DataBind.Text
