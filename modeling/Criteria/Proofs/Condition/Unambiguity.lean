import Criteria.Proofs.Condition.Reduced
import Criteria.Proofs.Text.Identifier

/-!
The text of a condition determines its meaning. Where the names are words, the
text of a reduced condition can be taken off the beginning of any text that does
not go on with a word, in one way only; so two conditions with one text are equal
once they are reduced, and a reduced condition means what it was reduced from.
-/

set_option autoImplicit false

namespace Criteria

/-- No character that a word could go on with comes first. -/
def EndsWord (rest : List Char) : Prop :=
  ∀ c ∈ rest.head?, isWordChar c = false

/-- The word that a text begins with, and the character that ends it. -/
def opening (cs : List Char) : List Char × Option Char :=
  (cs.takeWhile isWordChar, (cs.dropWhile isWordChar).head?)

section Words

variable {v w : String} {r s rest : List Char}

theorem opening_append (word : IsWord w) (ends : EndsWord rest) :
    opening (w.toList ++ rest) = (w.toList, rest.head?) := by
  have stops : rest.takeWhile isWordChar = [] ∧ rest.dropWhile isWordChar = rest := by
    cases rest with
    | nil => exact ⟨rfl, rfl⟩
    | cons c rest =>
      have other := ends c rfl
      simp [other]
  rw [opening, List.takeWhile_append_of_pos word, List.dropWhile_append_of_pos word, stops.1,
    stops.2, List.append_nil]

theorem word_append_inj (word : IsWord v) (otherWord : IsWord w) (ends : EndsWord r)
    (otherEnds : EndsWord s) (same : v.toList ++ r = w.toList ++ s) : v = w ∧ r = s := by
  have openings := congrArg opening same
  rw [opening_append word ends, opening_append otherWord otherEnds] at openings
  obtain rfl := String.toList_inj.1 (Prod.mk.inj openings).1
  exact ⟨rfl, List.append_cancel_left same⟩

theorem endsWord_nil : EndsWord [] :=
  nofun

theorem endsWord_cons {c : Char} (other : isWordChar c = false) : EndsWord (c :: rest) :=
  fun _ first => Option.some.inj first ▸ other

end Words

namespace Operand

/-- Alias and field, or the name of the parameter, are words. -/
def Worded : Operand → Prop
  | .field ref => IsWord ref.aliasName ∧ IsWord ref.field
  | .parameter name => IsWord name

instance (operand : Operand) : Decidable operand.Worded :=
  match operand with
  | .field _ => inferInstanceAs (Decidable (_ ∧ _))
  | .parameter name => inferInstanceAs (Decidable (IsWord name))

variable {operand other : Operand} {r s : List Char}

theorem toList_text_field (ref : FieldRef) (rest : List Char) :
    (field ref).text.toList ++ rest =
      ref.aliasName.toList ++ '.' :: (ref.field.toList ++ rest) := by
  simp [text, FieldRef.text]

theorem toList_text_parameter (name : String) (rest : List Char) :
    (parameter name).text.toList ++ rest = ':' :: (name.toList ++ rest) := by
  simp [text]

theorem opening_field {ref : FieldRef} (worded : (field ref).Worded) (rest : List Char) :
    opening ((field ref).text.toList ++ rest) = (ref.aliasName.toList, some '.') := by
  rw [toList_text_field, opening_append worded.1 (endsWord_cons rfl)]
  rfl

theorem opening_parameter (name : String) (rest : List Char) :
    opening ((parameter name).text.toList ++ rest) = ([], some ':') := by
  rw [toList_text_parameter]
  rfl

theorem text_append_inj (worded : operand.Worded) (otherWorded : other.Worded)
    (ends : EndsWord r) (otherEnds : EndsWord s)
    (same : operand.text.toList ++ r = other.text.toList ++ s) : operand = other ∧ r = s := by
  have openings := congrArg opening same
  cases operand with
  | field ref =>
    cases other with
    | field otherRef =>
      rw [toList_text_field, toList_text_field] at same
      obtain ⟨aliases, later⟩ :=
        word_append_inj worded.1 otherWorded.1 (endsWord_cons rfl) (endsWord_cons rfl) same
      obtain ⟨fields, rests⟩ :=
        word_append_inj worded.2 otherWorded.2 ends otherEnds (List.cons.inj later).2
      exact ⟨congrArg field (congr (congrArg FieldRef.mk aliases) fields), rests⟩
    | parameter name =>
      rw [opening_field worded, opening_parameter] at openings
      cases (Prod.mk.inj openings).2
  | parameter name =>
    cases other with
    | field ref =>
      rw [opening_field otherWorded, opening_parameter] at openings
      cases (Prod.mk.inj openings).2
    | parameter otherName =>
      rw [toList_text_parameter, toList_text_parameter] at same
      obtain ⟨names, rests⟩ :=
        word_append_inj worded otherWorded ends otherEnds (List.cons.inj same).2
      exact ⟨congrArg parameter names, rests⟩

end Operand

/-- A blank ends a symbol, which may begin another. -/
theorem Comparison.symbol_append_inj {op other : Comparison} {r s : List Char}
    (same : op.symbol.toList ++ ' ' :: r = other.symbol.toList ++ ' ' :: s) :
    op = other ∧ r = s := by
  cases op <;> cases other <;> simp_all [symbol]

theorem Connective.separator_append_inj {connective other : Connective} {r s : List Char}
    (same : connective.separator.toList ++ r = other.separator.toList ++ s) :
    connective = other ∧ r = s := by
  cases connective <;> cases other <;> simp_all [separator]

namespace Condition

/-- All names in the condition are words. -/
def Worded (c : Condition) : Prop :=
  ∀ operand ∈ c.operands, operand.Worded

instance (c : Condition) : Decidable c.Worded :=
  List.decidableBAll Operand.Worded c.operands

theorem Worded.reduced {c : Condition} (worded : c.Worded) : c.reduced.Worded := by
  rw [Worded, operands_reduced]
  exact worded

theorem Worded.part {connective : Connective} {parts : List Condition} {part : Condition}
    (worded : (connective.group parts).Worded) (member : part ∈ parts) : part.Worded := by
  intro operand inside
  refine worded operand ?_
  rw [operands_group]
  exact List.mem_flatMap.2 ⟨part, member, inside⟩

/-! ### Texts as characters -/

def chars (c : Condition) : List Char :=
  c.text.toList

theorem chars_reduced (c : Condition) : c.reduced.chars = c.chars := by
  rw [chars, text_reduced, chars]

/-- The parts of a group after the first one, each after the separator. -/
def tailChars (connective : Connective) (parts : List Condition) : List Char :=
  parts.flatMap fun part => connective.separator.toList ++ part.chars

theorem chars_compare (left right : Operand) (op : Comparison) (rest : List Char) :
    (compare left op right).chars ++ rest =
      left.text.toList ++ ' ' :: (op.symbol.toList ++ ' ' :: (right.text.toList ++ rest)) := by
  simp [chars, text]

theorem chars_not (part : Condition) (rest : List Char) :
    (not part).chars ++ rest = "NOT(".toList ++ (part.chars ++ ')' :: rest) := by
  simp [chars, text]

theorem intercalate_chars (connective : Connective) (first : Condition) (rest : List Condition) :
    (connective.separator.intercalate ((first :: rest).map text)).toList =
      first.chars ++ tailChars connective rest := by
  rw [String.toList_intercalate]
  induction rest generalizing first with
  | nil => simp [tailChars, chars]
  | cons second rest ih =>
    simp only [List.map_cons, List.intercalate_cons_cons] at ih ⊢
    simp only [ih, tailChars, chars, List.flatMap_cons, List.append_assoc]

theorem chars_group (connective : Connective) (first second : Condition) (parts : List Condition)
    (rest : List Char) :
    (connective.group (first :: second :: parts)).chars ++ rest =
      '(' :: (first.chars ++ (tailChars connective (second :: parts) ++ ')' :: rest)) := by
  rw [chars, text_group]
  simp only [groupText, List.map_cons, String.toList_append]
  rw [← List.map_cons, ← List.map_cons, intercalate_chars]
  simp

/-! ### Kinds of conditions -/

inductive Kind where
  | constant
  | comparison
  | group
  | negation

def kind : Condition → Kind
  | .always | .all [] | .any [] => .constant
  | .compare .. => .comparison
  | .all _ | .any _ => .group
  | .not _ => .negation

/-- The kind of condition that a text begins with. -/
def shownKind (cs : List Char) : Kind :=
  match (opening cs).2 with
  | some ' ' => .constant
  | some '(' => if (opening cs).1 = [] then .group else .negation
  | _ => .comparison

variable {c part other : Condition} {connective : Connective} {parts others : List Condition}
  {r s : List Char}

@[simp] theorem kind_always : kind .always = .constant := rfl

@[simp] theorem kind_never : kind (.any []) = .constant := rfl

@[simp] theorem kind_compare (left right : Operand) (op : Comparison) :
    kind (.compare left op right) = .comparison := rfl

@[simp] theorem kind_not (part : Condition) : kind (.not part) = .negation := rfl

@[simp] theorem kind_group (connective : Connective) (first second : Condition)
    (rest : List Condition) : (connective.group (first :: second :: rest)).kind = .group := by
  cases connective <;> rfl

-- A name may be a keyword or a number: what comes right after the word tells the kinds apart.
theorem shownKind_chars (reduced : c.Reduced) (worded : c.Worded) (rest : List Char) :
    shownKind (c.chars ++ rest) = c.kind := by
  cases reduced with
  | always | never => rfl
  | compare left op right =>
    have wordedLeft := worded left List.mem_cons_self
    rw [chars_compare, shownKind]
    cases left with
    | field ref =>
      rw [Operand.opening_field wordedLeft]
      rfl
    | parameter name =>
      rw [Operand.opening_parameter]
      rfl
  | group connective first second rest each =>
    rw [chars_group, kind_group]
    rfl
  | not part reduced =>
    rw [chars_not]
    rfl

theorem kind_eq (reduced : c.Reduced) (otherReduced : other.Reduced) (worded : c.Worded)
    (otherWorded : other.Worded) (same : c.chars ++ r = other.chars ++ s) :
    c.kind = other.kind := by
  rw [← shownKind_chars reduced worded r, same, shownKind_chars otherReduced otherWorded]

/-! ### Texts that begin with a condition -/

/-- The text of the condition can be taken off in one way only. -/
def Cancels (c : Condition) : Prop :=
  ∀ ⦃other : Condition⦄ ⦃r s : List Char⦄, other.Reduced → other.Worded → EndsWord r →
    EndsWord s → c.chars ++ r = other.chars ++ s → c = other ∧ r = s

theorem endsWord_tail (connective : Connective) (parts : List Condition) (ends : EndsWord r) :
    EndsWord (tailChars connective parts ++ r) := by
  cases parts with
  | nil => exact ends
  | cons part parts => cases connective <;> exact endsWord_cons rfl

/-- After a separator comes a part, and after the last part the parenthesis. -/
theorem tail_append_inj (cancels : ∀ part ∈ parts, part.Cancels)
    (reduced : ∀ part ∈ others, part.Reduced) (worded : ∀ part ∈ others, part.Worded)
    (same : tailChars connective parts ++ ')' :: r = tailChars connective others ++ ')' :: s) :
    parts = others ∧ r = s := by
  induction parts generalizing others with
  | nil =>
    cases others with
    | nil => exact ⟨rfl, (List.cons.inj same).2⟩
    | cons other others => cases connective <;> cases (List.cons.inj same).1
  | cons part parts ih =>
    cases others with
    | nil => cases connective <;> cases (List.cons.inj same).1
    | cons other others =>
      obtain ⟨head, tail⟩ := List.forall_mem_cons.1 cancels
      obtain ⟨headReduced, tailReduced⟩ := List.forall_mem_cons.1 reduced
      obtain ⟨headWorded, tailWorded⟩ := List.forall_mem_cons.1 worded
      simp only [tailChars, List.flatMap_cons, List.append_assoc] at same
      obtain ⟨-, later⟩ := Connective.separator_append_inj same
      obtain ⟨rfl, left⟩ := head headReduced headWorded (endsWord_tail _ _ (endsWord_cons rfl))
        (endsWord_tail _ _ (endsWord_cons rfl)) later
      obtain ⟨rfl, rests⟩ := ih tail tailReduced tailWorded left
      exact ⟨rfl, rests⟩

/-- The constants differ in their last characters. -/
theorem cancels_constant (reduced : c.Reduced) (constant : c.kind = .constant) (worded : c.Worded) :
    c.Cancels := by
  intro other r s otherReduced otherWorded _ _ same
  have kinds := kind_eq reduced otherReduced worded otherWorded same
  cases reduced with
  | always =>
    cases otherReduced with
    | always => exact ⟨rfl, List.append_cancel_left same⟩
    | never => cases same
    | compare | group | not => simp at kinds
  | never =>
    cases otherReduced with
    | always => cases same
    | never => exact ⟨rfl, List.append_cancel_left same⟩
    | compare | group | not => simp at kinds
  | compare | group | not => simp at constant

theorem cancels_compare {left right : Operand} {op : Comparison}
    (worded : (compare left op right).Worded) : (compare left op right).Cancels := by
  intro other r s otherReduced otherWorded ends otherEnds same
  have kinds := kind_eq (.compare left op right) otherReduced worded otherWorded same
  cases otherReduced with
  | compare otherLeft otherOp otherRight =>
    rw [chars_compare, chars_compare] at same
    obtain ⟨rfl, afterLeft⟩ := Operand.text_append_inj (worded _ (by simp [operands]))
      (otherWorded _ (by simp [operands])) (endsWord_cons rfl) (endsWord_cons rfl) same
    obtain ⟨rfl, afterSymbol⟩ := Comparison.symbol_append_inj (List.cons.inj afterLeft).2
    obtain ⟨rfl, rests⟩ := Operand.text_append_inj (worded _ (by simp [operands]))
      (otherWorded _ (by simp [operands])) ends otherEnds afterSymbol
    exact ⟨rfl, rests⟩
  | always | never | group | not => simp at kinds

theorem cancels_not (reduced : part.Reduced) (worded : part.not.Worded) (cancels : part.Cancels) :
    part.not.Cancels := by
  intro other r s otherReduced otherWorded _ _ same
  have kinds := kind_eq (.not part reduced) otherReduced worded otherWorded same
  cases otherReduced with
  | not other otherReduced =>
    rw [chars_not, chars_not] at same
    obtain ⟨rfl, rests⟩ := cancels otherReduced otherWorded (endsWord_cons rfl) (endsWord_cons rfl)
      (List.append_cancel_left same)
    exact ⟨rfl, (List.cons.inj rests).2⟩
  | always | never | compare | group => simp at kinds

theorem cancels_group {first second : Condition}
    (reduced : ∀ part ∈ first :: second :: parts, part.Reduced)
    (worded : (connective.group (first :: second :: parts)).Worded)
    (cancels : ∀ part ∈ first :: second :: parts, part.Cancels) :
    (connective.group (first :: second :: parts)).Cancels := by
  intro other r s otherReduced otherWorded _ _ same
  have kinds := kind_eq (.group connective first second parts reduced) otherReduced worded
    otherWorded same
  cases otherReduced with
  | group otherConnective otherFirst otherSecond others otherReduced =>
    obtain ⟨head, tail⟩ := List.forall_mem_cons.1 cancels
    obtain ⟨headReduced, tailReduced⟩ := List.forall_mem_cons.1 otherReduced
    obtain ⟨headWorded, tailWorded⟩ := List.forall_mem_cons.1 fun part => otherWorded.part
    rw [chars_group, chars_group] at same
    obtain ⟨rfl, later⟩ := head headReduced headWorded (endsWord_tail _ _ (endsWord_cons rfl))
      (endsWord_tail _ _ (endsWord_cons rfl)) (List.cons.inj same).2
    -- the first separator tells conjunctions from disjunctions
    obtain ⟨rfl, -⟩ : connective = otherConnective ∧ _ := by
      simp only [tailChars, List.flatMap_cons, List.append_assoc] at later
      exact Connective.separator_append_inj later
    obtain ⟨tails, rests⟩ := tail_append_inj tail tailReduced tailWorded later
    exact ⟨congrArg (fun tail => connective.group (first :: tail)) tails, rests⟩
  | always | never | compare | not => simp at kinds

theorem Reduced.cancels (reduced : c.Reduced) (worded : c.Worded) : c.Cancels := by
  induction reduced with
  | always => exact cancels_constant .always rfl worded
  | never => exact cancels_constant .never rfl worded
  | compare left op right => exact cancels_compare worded
  | group connective first second parts each ih =>
    exact cancels_group each worded fun part member => ih part member (worded.part member)
  | not part reduced ih => exact cancels_not reduced worded (ih worded)

theorem reduced_eq_of_text (worded : c.Worded) (otherWorded : other.Worded)
    (same : c.text = other.text) : c.reduced = other.reduced := by
  have shown : c.reduced.chars = other.reduced.chars := by
    rw [chars_reduced, chars_reduced, chars, chars, same]
  have cancels := c.reduced_reduced.cancels worded.reduced
  exact (cancels other.reduced_reduced otherWorded.reduced endsWord_nil endsWord_nil
    (congrArg (· ++ []) shown)).1

/-! ### Clauses -/

theorem clauseText_group (connective : Connective) (first second : Condition)
    (parts : List Condition) :
    (connective.group (first :: second :: parts)).clauseText =
      connective.separator.intercalate ((first :: second :: parts).map text) := by
  rw [← partTexts_eq]
  cases connective <;> rfl

/-- A condition is a clause as it is, or a group of several parts without its parentheses. -/
theorem clauseText_cases (c : Condition) : c.clauseText = c.text ∨
    c.text = "(" ++ c.clauseText ++ ")" ∧
      ∃ (connective : Connective) (first second : Condition) (parts : List Condition),
        c = connective.group (first :: second :: parts) := by
  match c with
  | .always | .compare .. | .not _ | .all [] | .any [] | .all [_] | .any [_] => exact .inl rfl
  | .all (first :: second :: parts) => exact .inr ⟨rfl, .and, first, second, parts, rfl⟩
  | .any (first :: second :: parts) => exact .inr ⟨rfl, .or, first, second, parts, rfl⟩

/-- The clause of a group is no other condition's text, which would end after the first part. -/
theorem clauseText_ne_text {first second : Condition}
    (worded : (connective.group (first :: second :: parts)).Worded)
    (otherWorded : other.Worded) :
    (connective.group (first :: second :: parts)).clauseText ≠ other.text := by
  intro same
  have shown : first.reduced.chars ++ tailChars connective (second :: parts) =
      other.reduced.chars ++ [] := by
    rw [chars_reduced, chars_reduced, ← intercalate_chars, ← clauseText_group, same,
      List.append_nil, chars]
  have cancels := first.reduced_reduced.cancels (worded.part List.mem_cons_self).reduced
  have ends := endsWord_tail connective (second :: parts) endsWord_nil
  rw [List.append_nil] at ends
  have nothing := (cancels other.reduced_reduced otherWorded.reduced ends endsWord_nil shown).2
  cases connective <;> cases nothing

theorem text_eq_of_clauseText (worded : c.Worded) (otherWorded : other.Worded)
    (same : c.clauseText = other.clauseText) : c.text = other.text := by
  obtain whole | ⟨text, connective, first, second, parts, rfl⟩ := c.clauseText_cases
  · obtain otherWhole | ⟨-, connective, first, second, parts, rfl⟩ := other.clauseText_cases
    · rw [← whole, ← otherWhole, same]
    · exact absurd (same.symm.trans whole) (clauseText_ne_text otherWorded worded)
  · obtain otherWhole | ⟨otherText, -⟩ := other.clauseText_cases
    · exact absurd (same.trans otherWhole) (clauseText_ne_text worded otherWorded)
    · rw [text, otherText, same]

/-- Conditions with one text, or one clause, mean the same: they have the same names and fields in
the same order, and the same value or error wherever they are evaluated. -/
theorem meaning_of_text {c other : Condition} (worded : c.Worded) (otherWorded : other.Worded)
    (same : c.text = other.text ∨ c.clauseText = other.clauseText) :
    c.parameterNames = other.parameterNames ∧ c.fieldRefs = other.fieldRefs ∧
      ∀ binding ps, c.evaluate binding ps = other.evaluate binding ps := by
  have texts : c.text = other.text := same.elim id (text_eq_of_clauseText worded otherWorded)
  have reduced := reduced_eq_of_text worded otherWorded texts
  have operands : c.operands = other.operands := by
    rw [← operands_reduced c, reduced, operands_reduced]
  refine ⟨?_, ?_, fun binding ps => ?_⟩
  · rw [parameterNames, operands, parameterNames]
  · rw [fieldRefs, operands, fieldRefs]
  · rw [← evaluate_reduced c, reduced, evaluate_reduced]

/-- A comparison whose names are keywords. -/
def keywords : Condition :=
  .compare (.field ⟨"NOT", "AND"⟩) .atMost (.parameter "OR")

theorem meaning_of_text_keywords :
    let short := Condition.any [.all [.not (.any []), .all []], .all [keywords]]
    let long := Condition.all [.any [.all [.all [.not (.any [.any []])], .always], keywords]]
    short.text = "((NOT(1 = 0) AND 1 = 1) OR NOT.AND <= :OR)" ∧
      ∀ binding ps, short.evaluate binding ps = long.evaluate binding ps := by
  intro short long
  have worded : short.Worded := by decide
  have otherWorded : long.Worded := by decide
  have same : short.text = long.text := rfl
  exact ⟨rfl, (meaning_of_text worded otherWorded (.inl same)).2.2⟩

end Condition

end Criteria
