import Criteria.Proofs.Query.Codec

/-!
Queries keep through their texts. A query without floating-point parameters is
decoded from its own text, unless that nests too deeply, and then nothing is. A
text from which one is decoded, however it is written, nests no less deeply than
the query's own text, so writing the query again loses nothing.
-/

set_option autoImplicit false

namespace Criteria

/-- How deeply a text that holds a document nests lists and records. -/
def Document.nesting? (text : Bytes) : Option Nat :=
  (Document.read? text).map JsonTree.depth

namespace Query

/-- The query as the bytes of a text. -/
def bytes (q : Query) : Bytes :=
  utf8 q.encode.render

def decode? (bytes : Bytes) : Option Query :=
  Decoder.decode? decoder bytes

/-- What is decoded from a text, in a text of its own. -/
def normalise? (text : Bytes) : Option Bytes :=
  (decode? text).map bytes

theorem nesting?_bytes {q : Query} (floatFree : q.parameters.FloatFree) :
    Document.nesting? q.bytes = some q.encode.depth := by
  rw [Document.nesting?, bytes, Document.read?_render (recovers floatFree).whole, Option.map_some,
    JsonTree.depth_toDocument]

/-- A query is decoded from its text if that nests lists and records at most 127 deep. Otherwise
nothing is, not another query. -/
theorem decode?_bytes {q : Query} (floatFree : q.parameters.FloatFree) :
    ∃ nesting, Document.nesting? q.bytes = some nesting ∧
      decode? q.bytes = if nesting ≤ 127 then some q else none :=
  ⟨q.encode.depth, nesting?_bytes floatFree, (recovers floatFree).decode?⟩

set_option maxRecDepth 10000 in
/-- Negations are nested to the last level and one level further. The query has two parameters of
one name, the least integer among them, and a text with characters to escape. -/
theorem decode?_bytes_negations :
    let negations : Nat → Query := fun levels =>
      { select := ["\"\\\n😀"], filter := some (Nat.repeat .not levels .always),
        parameters := ⟨[("p", .int Int64.minValue), ("p", .null)]⟩ }
    (∀ levels, (negations levels).parameters.FloatFree) ∧
      decode? (negations 126).bytes = some (negations 126) ∧
      decode? (negations 127).bytes = none := by
  intro negations
  have floatFree : ∀ levels, (negations levels).parameters.FloatFree := fun levels =>
    List.forall_mem_cons.2 ⟨id, List.forall_mem_singleton.2 id⟩
  have last : (negations 126).encode.depth = 127 := by rfl
  have further : (negations 127).encode.depth = 128 := by rfl
  refine ⟨floatFree, ?_, ?_⟩
  · obtain ⟨nesting, nests, decoded⟩ := decode?_bytes (floatFree 126)
    rw [nesting?_bytes (floatFree 126), last] at nests
    rwa [← Option.some.inj nests] at decoded
  · obtain ⟨nesting, nests, decoded⟩ := decode?_bytes (floatFree 127)
    rw [nesting?_bytes (floatFree 127), further] at nests
    rwa [← Option.some.inj nests] at decoded

/-- Whatever text a query is decoded from, its own text nests no more deeply, the same query is
decoded from it, and a second normalisation changes nothing. -/
theorem normalise?_lossless {text : Bytes} {q : Query} (accepted : decode? text = some q)
    (floatFree : q.parameters.FloatFree) :
    ∃ given own, Document.nesting? text = some given ∧ Document.nesting? q.bytes = some own ∧
      own ≤ given ∧ decode? q.bytes = some q ∧
      (decode? q.bytes).map Query.text = (decode? text).map Query.text ∧
      normalise? text = some q.bytes ∧ (normalise? text).bind normalise? = normalise? text := by
  obtain ⟨document, holds, decoded⟩ := Option.bind_eq_some_iff.1 accepted
  have bound : q.encode.depth ≤ min maxNesting document.depth := q.covers decoded
  obtain ⟨followed, shallower⟩ := Nat.le_min.1 bound
  have again : decode? q.bytes = some q := (recovers floatFree).decode?.trans (if_pos followed)
  have first : normalise? text = some q.bytes := congrArg (Option.map bytes) accepted
  have second : normalise? q.bytes = some q.bytes := congrArg (Option.map bytes) again
  refine ⟨document.depth, q.encode.depth, ?_, nesting?_bytes floatFree, shallower, again, ?_,
    first, ?_⟩
  · rw [Document.nesting?, holds, Option.map_some]
  · rw [again, accepted]
  · rw [first, Option.bind_some, second]

set_option maxRecDepth 10000 in
/-- A text with blanks, escapes, its members in another order, one of them unknown and not even
finite, structures as lists, and constants as records. -/
theorem normalise?_lossless_otherForms :
    let text := utf8 ("\n\x7b\"more\":[[1e999,\x7b\x7d]],\"from\":[[\"User\",\"u\"]]," ++
      "\"select\":[\"\\u0075\"],\"filter\":\x7b\"not\":\x7b\"true\":null\x7d\x7d,\"joins\":[]," ++
      "\"order_by\":[],\"parameters\":[[[\"p\",\x7b\"int\":-1\x7d]," ++
      "[\"p\",\x7b\"null\":null\x7d]]]\x7d ")
    let q : Query :=
      { select := ["u"], roots := [⟨⟨"User"⟩, "u"⟩], filter := some (.not .always),
        parameters := ⟨[("p", .int (-1)), ("p", .null)]⟩ }
    decode? text = some q ∧ q.parameters.FloatFree ∧ normalise? text = some q.bytes ∧
      decode? q.bytes = some q := by
  intro text q
  have accepted : decode? text = some q := by rfl
  have floatFree : q.parameters.FloatFree :=
    List.forall_mem_cons.2 ⟨id, List.forall_mem_singleton.2 id⟩
  obtain ⟨-, -, -, -, -, again, -, first, -⟩ := normalise?_lossless accepted floatFree
  exact ⟨accepted, floatFree, first, again⟩

end Query

end Criteria
