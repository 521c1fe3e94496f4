/-
**Finding text in text.**

* `afterLead?_eq_some`: what follows a lead, with the lead in front, is the text;
* `cutAt_eq_some`, `cutAtText_eq_some`: the two parts of a cut put the text together again;
* `piecesFrom_ne_nil`: splitting gives at least one piece.
-/

namespace DataBind.Text

/-- What follows `lead` at the start of the text, if the text starts with it. -/
def afterLead? : List Char → List Char → Option (List Char)
  | [], text => some text
  | _ :: _, [] => none
  | c :: lead, d :: rest => if c = d then afterLead? lead rest else none

/-- The parts before and after the first character `mark`. -/
def cutAt (mark : Char) : List Char → Option (List Char × List Char)
  | [] => none
  | c :: rest =>
    if c = mark then some ([], rest)
    else (cutAt mark rest).map fun (before, after) => (c :: before, after)

/-- The parts before and after the first occurrence of `needle`. -/
def cutAtText (needle : List Char) : List Char → Option (List Char × List Char)
  | [] => if needle.isEmpty then some ([], []) else none
  | c :: rest =>
    match afterLead? needle (c :: rest) with
    | some after => some ([], after)
    | none => (cutAtText needle rest).map fun (before, after) => (c :: before, after)

/-- The number of characters before the first occurrence of `needle`. -/
def indexOf? (needle text : List Char) : Option Nat :=
  (cutAtText needle text).map fun (before, _) => before.length

/-- The pieces between the occurrences of a needle, of which `skip` more characters are still to
be passed over. -/
def piecesFrom (needle : List Char) : Nat → List Char → List (List Char)
  | _, [] => [[]]
  | skip + 1, _ :: rest => piecesFrom needle skip rest
  | 0, c :: rest =>
    if (afterLead? needle (c :: rest)).isSome then [] :: piecesFrom needle (needle.length - 1) rest
    else
      match piecesFrom needle 0 rest with
      | [] => [[c]]
      | piece :: others => (c :: piece) :: others

/-- The pieces between the occurrences of a needle that is not empty, found from left to right
and without overlap. -/
def pieces (needle text : List Char) : List (List Char) :=
  piecesFrom needle 0 text

/-- The first occurrence of each element, in order. -/
def distinct {α : Type} [DecidableEq α] : List α → List α
  | [] => []
  | a :: rest => a :: distinctFrom [a] rest
where
  /-- The first occurrences of the elements that have not been seen. -/
  distinctFrom (seen : List α) : List α → List α
    | [] => []
    | a :: rest =>
      if a ∈ seen then distinctFrom seen rest else a :: distinctFrom (a :: seen) rest

theorem afterLead?_eq_some {lead text rest : List Char} :
    afterLead? lead text = some rest ↔ text = lead ++ rest := by
  induction lead generalizing text with
  | nil => simp [afterLead?]
  | cons c lead ih =>
    cases text with
    | nil => simp [afterLead?]
    | cons d text =>
      by_cases same : c = d
      · subst same
        simp [afterLead?, ih]
      · simp [afterLead?, same]
        exact fun other => absurd other.symm same

/-- The two parts of a cut put the text together again. -/
theorem cutAt_eq_some {mark : Char} {text before after : List Char}
    (cut : cutAt mark text = some (before, after)) : text = before ++ mark :: after := by
  induction text generalizing before with
  | nil => simp [cutAt] at cut
  | cons c rest ih =>
    by_cases same : c = mark
    · simp only [cutAt, same, if_true, Option.some.injEq, Prod.mk.injEq] at cut
      obtain ⟨rfl, rfl⟩ := cut
      simp [same]
    · simp only [cutAt, same, if_false, Option.map_eq_some_iff, Prod.mk.injEq, Prod.exists] at cut
      obtain ⟨front, back, found, rfl, rfl⟩ := cut
      simp [ih found]

theorem cutAt_length {mark : Char} {text before after : List Char}
    (cut : cutAt mark text = some (before, after)) : after.length < text.length := by
  have whole := cutAt_eq_some cut
  subst whole
  simp
  omega

/-- The two parts of a cut at a text put the text together again. -/
theorem cutAtText_eq_some {needle text before after : List Char}
    (cut : cutAtText needle text = some (before, after)) : text = before ++ needle ++ after := by
  induction text generalizing before with
  | nil =>
    unfold cutAtText at cut
    split at cut
    · rename_i empty
      simp_all
    · simp at cut
  | cons c rest ih =>
    unfold cutAtText at cut
    split at cut
    · rename_i follow found
      simp only [Option.some.injEq, Prod.mk.injEq] at cut
      obtain ⟨rfl, rfl⟩ := cut
      simpa using afterLead?_eq_some.mp found
    · simp only [Option.map_eq_some_iff, Prod.mk.injEq, Prod.exists] at cut
      obtain ⟨front, back, found, rfl, rfl⟩ := cut
      simp [ih found]

theorem piecesFrom_ne_nil (needle : List Char) (skip : Nat) (text : List Char) :
    piecesFrom needle skip text ≠ [] := by
  induction text generalizing skip with
  | nil => cases skip <;> simp [piecesFrom]
  | cons c rest ih =>
    cases skip with
    | succ skip => simpa [piecesFrom] using ih skip
    | zero =>
      unfold piecesFrom
      split
      · simp
      · split <;> simp

end DataBind.Text
