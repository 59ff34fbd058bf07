import Criteria.Json.Printer
import Criteria.Json.Reader
import Criteria.Proofs.Json.Quoted
import Criteria.Proofs.Number.Numeral

/-!
Documents are read from the text that was written for them. The reader takes the
text of a value token by token, whatever it has read before, and is then where a
value is complete. This is by recursion on the value: what comes after an item or
a member is the rest of the list or record.
-/

set_option autoImplicit false

namespace Criteria

namespace JsonTree

mutual
/-- All numbers are whole numbers of 64 bits. -/
def Whole : Json → Prop
  | .number n => n.IsWhole64
  | .list items => ItemsWhole items
  | .record members => MembersWhole members
  | .null | .bool _ | .text _ => True

def ItemsWhole : List Json → Prop
  | [] => True
  | item :: rest => item.Whole ∧ ItemsWhole rest

def MembersWhole : List (String × Json) → Prop
  | [] => True
  | (_, member) :: rest => member.Whole ∧ MembersWhole rest
end

end JsonTree

/-- The bytes of characters. -/
def encoded (cs : List Char) : Bytes :=
  cs.flatMap String.utf8EncodeChar

theorem encoded_append (first second : List Char) :
    encoded (first ++ second) = encoded first ++ encoded second :=
  List.flatMap_append

/-- The text is at its end, or goes on after a value. -/
def Delimits (rest : Bytes) : Prop :=
  ∀ b ∈ rest.head?, b = 0x2c ∨ b = 0x5d ∨ b = 0x7d

theorem Delimits.ends {rest : Bytes} (delimits : Delimits rest) : Numeral.Ends rest := by
  intro b first
  rcases delimits b first with rfl | rfl | rfl <;> decide

namespace Token

variable {bytes rest : Bytes} {numeral : Numeral}

theorem read?_of_numeral (read : Numeral.read? bytes = some (numeral, rest)) :
    read? bytes = some (.number numeral.value?, rest) := by
  unfold read?
  split
  iterate 10 cases read
  rw [read]
  rfl

/-- No token begins with a blank. -/
theorem isBlank_of_read? {b : UInt8} {token : Token} {left : Bytes}
    (read : read? (b :: bytes) = some (token, left)) : Document.Reader.isBlank b = false := by
  refine Bool.eq_false_iff.2 fun blank => ?_
  simp only [Document.Reader.isBlank, Bool.or_eq_true, beq_iff_eq] at blank
  rcases blank with ((rfl | rfl) | rfl) | rfl <;> cases read

theorem read?_text (s : String) (rest : Bytes) :
    read? (encoded (Quoted.chars s) ++ rest) = some (.text (some s), rest) := by
  obtain ⟨parts, decoded, written, read⟩ := Quoted.read?_chars s rest
  rw [encoded, written, read?, read, Option.map_some, ← decoded]

theorem read?_number {n : Number} (whole : n.IsWhole64) (delimits : Delimits rest) :
    read? (encoded n.text.toList ++ rest) = some (.number (some n), rest) := by
  cases n with
  | float x => exact whole.elim
  | int i =>
    obtain ⟨numeral, read, value⟩ := Numeral.read?_toString whole delimits.ends
    rw [encoded, ← utf8_eq, Number.text, read?_of_numeral read, value]

end Token

namespace Document.Reader

open JsonTree

variable {r s t : Reader} {bytes rest : Bytes} {frames : List Frame}

/-- The reader takes the bytes, each token one of them at least, and goes on with what follows. -/
def Takes (r : Reader) (bytes : Bytes) (s : Reader) (rest : Bytes) : Prop :=
  ∃ n ≤ bytes.length, ∀ fuel, run (n + fuel) r (bytes ++ rest) = run fuel s rest

theorem Takes.trans {first second : Bytes} (head : Takes r first s (second ++ rest))
    (tail : Takes s second t rest) : Takes r (first ++ second) t rest := by
  obtain ⟨m, few, before⟩ := head
  obtain ⟨n, fewer, after⟩ := tail
  refine ⟨m + n, ?_, fun fuel => ?_⟩
  · rw [List.length_append]
    omega
  · rw [List.append_assoc, Nat.add_assoc, before, after]

theorem Takes.token {token : Token} (some_byte : bytes ≠ [])
    (read : Token.read? (bytes ++ rest) = some (token, rest)) (stepped : r.step token = some s) :
    Takes r bytes s rest := by
  cases bytes with
  | nil => exact absurd rfl some_byte
  | cons b bytes =>
    refine ⟨1, Nat.succ_pos _, fun fuel => ?_⟩
    have visible := Token.isBlank_of_read? read
    rw [List.cons_append] at read ⊢
    have stays : (b :: (bytes ++ rest)).dropWhile isBlank = b :: (bytes ++ rest) :=
      List.dropWhile_cons_of_neg (by simp [visible])
    rw [Nat.add_comm, run.eq_def]
    simp only [stays, read, stepped]

/-- A value may come next, with these lists and records open around it. -/
def Begins (r : Reader) (frames : List Frame) : Prop :=
  ∀ token, token ≠ .closeList → r.step token = beginValue frames token

theorem begins_value (frames : List Frame) : Begins ⟨frames, .value⟩ frames :=
  fun _ _ => rfl

theorem begins_firstItem (frames : List Frame) :
    Begins ⟨frames, .firstItem⟩ (.list [] :: frames) := by
  intro token item
  cases token with
  | closeList => exact absurd rfl item
  | _ => rfl

theorem Takes.text {name : String} (stepped : r.step (.text (some name)) = some s) :
    Takes r (encoded (Quoted.chars name)) s rest :=
  .token (List.cons_ne_nil _ _) (Token.read?_text name rest) stepped

theorem Takes.number {n : Number} (whole : n.IsWhole64) (delimits : Delimits rest)
    (stepped : r.step (.number (some n)) = some s) : Takes r (encoded n.text.toList) s rest := by
  refine .token ?_ (Token.read?_number whole delimits) stepped
  intro empty
  have read : Token.read? (encoded n.text.toList ++ []) = some (.number (some n), []) :=
    Token.read?_number whole nofun
  rw [empty] at read
  cases read

/-- One byte that is a token by itself. -/
theorem Takes.byte {b : UInt8} {token : Token}
    (read : Token.read? (b :: rest) = some (token, rest)) (stepped : r.step token = some s) :
    Takes r [b] s rest :=
  .token (List.cons_ne_nil _ _) read stepped

theorem delimits_items (items : List Json) (rest : Bytes) :
    Delimits (encoded (itemChars items) ++ rest) := by
  intro b first
  cases items with
  | nil => exact .inr (.inl (Option.some.inj first).symm)
  | cons item items => exact .inl (Option.some.inj first).symm

theorem delimits_members (members : List (String × Json)) (rest : Bytes) :
    Delimits (encoded (memberChars members) ++ rest) := by
  intro b first
  cases members with
  | nil => exact .inr (.inr (Option.some.inj first).symm)
  | cons member members => exact .inl (Option.some.inj first).symm

/-- An item after a bracket or a comma, and what follows it in the list. -/
theorem encoded_item (c : Char) (item : Json) (items : List Json) :
    encoded (c :: item.chars ++ itemChars items) =
      String.utf8EncodeChar c ++ (encoded item.chars ++ encoded (itemChars items)) := by
  rw [List.cons_append, ← encoded_append]
  rfl

/-- A member after a brace or a comma, and what follows it in the record. -/
theorem encoded_member (c : Char) (name : String) (member : Json) (members : List (String × Json)) :
    encoded (c :: Quoted.chars name ++ ':' :: member.chars ++ memberChars members) =
      String.utf8EncodeChar c ++ (encoded (Quoted.chars name) ++ ([0x3a] ++
        (encoded member.chars ++ encoded (memberChars members)))) := by
  have colon : String.utf8EncodeChar ':' = [0x3a] := rfl
  simp only [encoded, List.flatMap_append, List.flatMap_cons, List.append_assoc, List.cons_append,
    colon, List.nil_append]

mutual
theorem takes_value {j : Json} {r : Reader} {frames : List Frame} {rest : Bytes} (whole : j.Whole)
    (begins : Begins r frames) (delimits : Delimits rest) :
    Takes r (encoded j.chars) ⟨frames, .next j.toDocument⟩ rest := by
  match j with
  | .null => exact .token (List.cons_ne_nil _ _) rfl (begins .null nofun)
  | .bool true => exact .token (List.cons_ne_nil _ _) rfl (begins (.bool true) nofun)
  | .bool false => exact .token (List.cons_ne_nil _ _) rfl (begins (.bool false) nofun)
  | .number n => exact .number whole delimits (begins (.number (some n)) nofun)
  | .text s => exact .text (begins (.text (some s)) nofun)
  | .list [] => exact .trans (.byte rfl (begins .openList nofun)) (.byte rfl rfl)
  | .list (item :: items) =>
    -- the bracket, the first item, and the others with the end
    rw [chars, encoded_item]
    exact .trans (.byte rfl (begins .openList nofun))
      (.trans (takes_value whole.1 (begins_firstItem frames) (delimits_items items rest))
        (takes_items whole.2 frames [] item.toDocument rest))
  | .record [] => exact .trans (.byte rfl (begins .openRecord nofun)) (.byte rfl rfl)
  | .record ((name, member) :: members) =>
    -- the brace, the name, the colon, the first member, and the others with the end
    rw [chars, encoded_member]
    exact .trans (.byte rfl (begins .openRecord nofun)) (.trans (.text rfl) (.trans (.byte rfl rfl)
      (.trans (takes_value whole.1 (begins_value _) (delimits_members members rest))
        (takes_members whole.2 frames [] (some name) member.toDocument rest))))

/-- The items after the first one, and the end of the list. -/
theorem takes_items {items : List Json} (whole : ItemsWhole items) (frames : List Frame)
    (before : List Document) (value : Document) (rest : Bytes) :
    Takes ⟨.list before :: frames, .next value⟩ (encoded (itemChars items))
      ⟨frames, .next (.list ((value :: before).reverse ++ toDocuments items))⟩ rest := by
  match items with
  | [] => exact .byte rfl (by rw [toDocuments, List.append_nil]; rfl)
  | item :: items =>
    have after := takes_items whole.2 frames (value :: before) item.toDocument rest
    rw [List.reverse_cons, List.append_assoc] at after
    rw [itemChars, encoded_item]
    exact .trans (.byte rfl rfl) (.trans
      (takes_value whole.1 (begins_value _) (delimits_items items rest)) after)

/-- The members after the first one, and the end of the record. -/
theorem takes_members {members : List (String × Json)} (whole : MembersWhole members)
    (frames : List Frame) (before : List (Option String × Document)) (name : Option String)
    (value : Document) (rest : Bytes) :
    Takes ⟨.record before name :: frames, .next value⟩ (encoded (memberChars members))
      ⟨frames, .next (.record (((name, value) :: before).reverse ++ toDocumentMembers members))⟩
      rest := by
  match members with
  | [] => exact .byte rfl (by rw [toDocumentMembers, List.append_nil]; rfl)
  | (other, member) :: members =>
    have after := takes_members whole.2 frames ((name, value) :: before) (some other)
      member.toDocument rest
    rw [List.reverse_cons, List.append_assoc] at after
    rw [memberChars, encoded_member]
    exact .trans (.byte rfl rfl) (.trans (.text rfl) (.trans (.byte rfl rfl) (.trans
      (takes_value whole.1 (begins_value _) (delimits_members members rest)) after)))
end

end Document.Reader

/-- A value without floating-point numbers is read from its text as it is. -/
theorem Document.read?_render {j : Json} (whole : j.Whole) :
    Document.read? (utf8 j.render) = some j.toDocument := by
  have taken : Reader.Takes .start (encoded j.chars) ⟨[], .next j.toDocument⟩ [] :=
    Reader.takes_value whole (Reader.begins_value []) nofun
  obtain ⟨n, few, run⟩ := taken
  have text : utf8 j.render = encoded j.chars := utf8_ofList _
  have read := run ((encoded j.chars).length - n)
  rw [List.append_nil, Nat.add_sub_cancel' few] at read
  rw [text, Document.read?]
  exact read.trans (by rw [Reader.run.eq_def]; rfl)

end Criteria
