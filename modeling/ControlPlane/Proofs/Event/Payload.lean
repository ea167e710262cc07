import ControlPlane.Proofs.Event.Variants
-- The octets of an output event have one written form.
namespace ControlPlane.Event

open Json

inductive Output : String → (Bytes → Event) → Prop where
  | stdout : Output "stdout" .stdout
  | stderr : Output "stderr" .stderr

def Bears (line : List Char) (kind payload : String) : Prop :=
  ∃ body, Document line (.record [(kind, body)]) ∧ Carries payload body

variable {words : Json.Words} {kind : String} {event : Bytes → Event} {line : List Char}
  {payload : String}
  {data : Bytes}

theorem Output.kind_eq (output : Output kind event) (data : Bytes) :
    (event data).kind = kind := by
  cases output <;> rfl

theorem Output.body_iff (output : Output kind event) {body : Value} : Body (event data) body ↔
    ∃ payload, Carries payload body ∧ Base64.decode? payload.toList = some data := by
  cases output with
  | stdout =>
    constructor
    · rintro (_ | ⟨carries, decoded⟩ | _ | _)
      exact ⟨_, carries, decoded⟩
    · rintro ⟨payload, carries, decoded⟩
      exact .stdout carries decoded
  | stderr =>
    constructor
    · rintro (_ | _ | ⟨carries, decoded⟩ | _)
      exact ⟨_, carries, decoded⟩
    · rintro ⟨payload, carries, decoded⟩
      exact .stderr carries decoded

theorem Output.of_kind (output : Output kind event) {e : Event} (same : kind = e.kind) :
    ∃ data, e = event data := by
  cases output <;> cases e <;> simp [Event.kind] at same <;> exact ⟨_, rfl⟩

theorem Carries.unique {payload other : String} {body : Value} (first : Carries payload body)
    (second : Carries other body) : payload = other := by
  have distinct : dataFields.Nodup := by decide
  have same := first.record.holds_unique distinct (.head _) first.held second.held
  exact Option.some.inj (Value.string.inj same)

theorem Bears.decode_iff (bears : Bears line kind payload) (output : Output kind event) :
    decode words line = .ok (event data) ↔ payload.toList = Base64.encode data := by
  obtain ⟨body, document, carries⟩ := bears
  rw [decode_eq_ok, ← Base64.decode?_eq_some]
  constructor
  · rintro ⟨other, whole, denotes⟩
    cases document.unique whole
    obtain ⟨found, held, decoded⟩ := output.body_iff.1 (denotes_member.1 denotes).2
    rwa [carries.unique held]
  · intro decoded
    refine ⟨_, document, denotes_member.2 ⟨(output.kind_eq data).symm, ?_⟩⟩
    exact output.body_iff.2 ⟨payload, carries, decoded⟩

theorem bears_of_decode (output : Output kind event)
    (read : decode words line = .ok (event data)) :
    ∃ payload, Bears line kind payload := by
  obtain ⟨document, whole, denotes⟩ := decode_eq_ok.1 read
  generalize same : event data = e at denotes
  cases denotes with
  | bare => cases output <;> cases same
  | tagged stands =>
    subst same
    rw [output.kind_eq] at whole
    obtain ⟨payload, carries, _⟩ := output.body_iff.1 stands
    exact ⟨payload, _, whole, carries⟩

theorem Bears.irregular (bears : Bears line kind payload) (output : Output kind event)
    (irregular : ¬ Base64.Regular payload.toList) :
    decode words line = .error (unreadable words line) := by
  refine decode_eq_malformed fun e read => irregular ?_
  obtain ⟨body, document, carries⟩ := id bears
  obtain ⟨other, whole, denotes⟩ := decode_eq_ok.1 read
  cases document.unique whole
  obtain ⟨data, rfl⟩ := output.of_kind (denotes_member.1 denotes).1
  rw [(bears.decode_iff output).1 read]
  exact Base64.regular_encode data

-- A line that is read as output bears a payload, and the octets that are read are written as
-- this payload, so that two payloads never have the same octets. A payload that is not
-- regular is refused, whatever is wrong with it.
theorem payload_canonical (words : Json.Words) (output : Output kind event) (line : List Char) :
    (∀ data, decode words line = .ok (event data) → ∃ payload, Bears line kind payload) ∧
    ∀ payload, Bears line kind payload →
      (∀ data, decode words line = .ok (event data) ↔ payload.toList = Base64.encode data) ∧
      ((∃ data, decode words line = .ok (event data)) ↔ Base64.Regular payload.toList) ∧
      (¬ Base64.Regular payload.toList →
        decode words line = .error (unreadable words line)) ∧
      (Base64.Irregular payload.toList →
        decode words line = .error (unreadable words line)) ∧
      ∀ data, decode words line = .ok (event data) →
        ∀ {kind : String} {event : Bytes → Event}, Output kind event → ∀ line other,
          Bears line kind other → decode words line = .ok (event data) → other = payload := by
  refine ⟨fun data => bears_of_decode output, fun payload bears => ⟨?_, ?_, ?_, ?_, ?_⟩⟩
  · intro data
    exact bears.decode_iff output
  · simp only [bears.decode_iff output, ← Base64.exists_decode?_iff, Base64.decode?_eq_some]
  · exact bears.irregular output
  · intro irregular
    exact bears.irregular output irregular.not_regular
  · intro data read kind event second line other bearsOther readOther
    apply String.toList_inj.1
    rw [(bears.decode_iff output).1 read, (bearsOther.decode_iff second).1 readOther]

theorem payload_canonical_strayBits :
    decode Json.wordless "\x7b\"stdout\":\x7b\"data\":\"aGk=\"\x7d\x7d".toList =
        .ok (.stdout [104, 105]) ∧
      "aGk=".toList = Base64.encode [104, 105] ∧
      decode Json.wordless "\x7b\"stdout\":\x7b\"data\":\"aGl=\"\x7d\x7d".toList =
        .error (.malformed "invalid exec event: ") := by
  have bears (payload : String) : Bears
      (Json.Value.record [("stdout", .record [("data", .ofString payload)])]).print "stdout" payload :=
    ⟨_, .of_spells (spells_print _), .object (by simp [dataFields]), .member (.head _)⟩
  have clear : Bears "\x7b\"stdout\":\x7b\"data\":\"aGk=\"\x7d\x7d".toList "stdout" "aGk=" :=
    bears "aGk="
  have stray : Bears "\x7b\"stdout\":\x7b\"data\":\"aGl=\"\x7d\x7d".toList "stdout" "aGl=" :=
    bears "aGl="
  have read : decode Json.wordless "\x7b\"stdout\":\x7b\"data\":\"aGk=\"\x7d\x7d".toList =
      .ok (.stdout [104, 105]) := by decide +kernel
  have irregular : Base64.Irregular "aGl=".toList :=
    @Base64.Irregular.stray ['a', 'G'] 37 1 (by decide) (by decide)
  exact ⟨read, (((payload_canonical Json.wordless .stdout _).2 _ clear).1 _).1 read,
    ((payload_canonical Json.wordless .stdout _).2 _ stray).2.2.2.1 irregular⟩

end ControlPlane.Event
