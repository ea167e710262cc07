import ControlPlane.Proofs.Event.RoundTrip
import ControlPlane.Proofs.Json.Document
import ControlPlane.Proofs.Json.Fields
-- Which texts are events: documents that name the kind of one event and carry what
-- belongs to it.
namespace ControlPlane

open Json

namespace Event

theorem exitCode?_eq_some {v : Value} {code : Int32} :
    exitCode? v = some code ↔ v = .ofInt code.toInt := by
  constructor
  · intro read
    obtain ⟨i, number, read⟩ := Option.bind_eq_some_iff.1 read
    split at read
    · rename_i range
      cases read
      rw [Int32.toInt_ofInt_of_le (by omega) (by omega)]
      exact int?_eq_some.1 number
    · cases read
  · rintro rfl
    exact exitCode?_ofInt code

def dataFields : List String := ["data"]

def finishFields : List String := ["exit_code", "error"]

structure Carries (payload : String) (body : Value) : Prop where
  record : IsRecord dataFields body
  held : Holds dataFields "data" (.ofString payload) body

-- What stands beside the name of the kind of an event. The text of an error may be missing,
-- and is empty then. The exit code and the data may not.
inductive Body : Event → Value → Prop where
  | start : Body .start .null
  | stdout {payload : String} {data : Bytes} {body : Value} (carries : Carries payload body)
      (decoded : Base64.decode? payload.toList = some data) : Body (.stdout data) body
  | stderr {payload : String} {data : Bytes} {body : Value} (carries : Carries payload body)
      (decoded : Base64.decode? payload.toList = some data) : Body (.stderr data) body
  | finish {code : Int32} {error : String} {body : Value} (record : IsRecord finishFields body)
      (ends : Holds finishFields "exit_code" (.ofInt code.toInt) body)
      (message : Holds finishFields "error" (.ofString error) body ∨
        error = "" ∧ ∀ v, ¬ Holds finishFields "error" v body) : Body (.finish code error) body

-- A document that is an event: the text that is the start, or an object with one member,
-- whose name is the kind of the event.
inductive Denotes : Event → Value → Prop where
  | bare : Denotes .start (.ofString "start")
  | tagged {e : Event} {body : Value} (stands : Body e body) : Denotes e (.record [(e.kind, body)])

theorem readData_eq_some {body : Value} {data : Bytes} : readData body = some data ↔
    ∃ payload, Carries payload body ∧ Base64.decode? payload.toList = some data := by
  have distinct : dataFields.Nodup := by decide
  constructor
  · intro read
    obtain ⟨fields, record, read⟩ := Option.bind_eq_some_iff.1 read
    obtain ⟨payload, text, decoded⟩ := Option.bind_eq_some_iff.1 read
    have found := found_of_read distinct record
    obtain ⟨v, held, text⟩ := (found.required_eq_some (.head _)).1 text
    cases text?_eq_some.1 text
    exact ⟨payload, ⟨found.isRecord, held⟩, decoded⟩
  · rintro ⟨payload, ⟨isRecord, held⟩, decoded⟩
    obtain ⟨fields, read⟩ := read_of_isRecord isRecord
    have found := found_of_read distinct read
    have text := (found.required_eq_some (.head _)).2 ⟨_, held, text?_ofString payload⟩
    rw [readData, ← dataFields, read]
    simp [text, decoded]

theorem readFinish_eq_some {body : Value} {e : Event} : readFinish body = some e ↔
    ∃ code error, e = .finish code error ∧ Body e body := by
  have distinct : finishFields.Nodup := by decide
  have second : "error" ∈ finishFields := by decide
  constructor
  · intro read
    obtain ⟨fields, record, read⟩ := Option.bind_eq_some_iff.1 read
    obtain ⟨code, number, read⟩ := Option.bind_eq_some_iff.1 read
    obtain ⟨error, text, read⟩ := Option.bind_eq_some_iff.1 read
    have found := found_of_read distinct record
    obtain ⟨v, ends, number⟩ := (found.required_eq_some (.head _)).1 number
    have message := (found.withDefault_eq_some second).1 text
    simp only [text?_eq_some, exists_eq_right] at message
    cases exitCode?_eq_some.1 number
    cases read
    exact ⟨code, error, rfl, .finish found.isRecord ends message⟩
  · rintro ⟨code, error, rfl, stands⟩
    cases stands with
    | finish isRecord ends message =>
      obtain ⟨fields, read⟩ := read_of_isRecord isRecord
      have found := found_of_read distinct read
      have number := (found.required_eq_some (.head _)).2 ⟨_, ends, exitCode?_ofInt code⟩
      have text : fields.withDefault "error" "" text? = some error := by
        rw [found.withDefault_eq_some second]
        simpa only [text?_eq_some, exists_eq_right] using message
      rw [readFinish, ← finishFields, read]
      simp [number, text]

theorem ofMember_eq_some {name : String} {body : Value} {e : Event} :
    ofMember name body = some e ↔ name = e.kind ∧ Body e body := by
  constructor
  · intro read
    unfold ofMember at read
    split at read
    · cases read
      exact ⟨rfl, .start⟩
    · obtain ⟨data, taken, rfl⟩ := Option.map_eq_some_iff.1 read
      obtain ⟨payload, carries, decoded⟩ := readData_eq_some.1 taken
      exact ⟨rfl, .stdout carries decoded⟩
    · obtain ⟨data, taken, rfl⟩ := Option.map_eq_some_iff.1 read
      obtain ⟨payload, carries, decoded⟩ := readData_eq_some.1 taken
      exact ⟨rfl, .stderr carries decoded⟩
    · obtain ⟨code, error, rfl, stands⟩ := readFinish_eq_some.1 read
      exact ⟨rfl, stands⟩
    · cases read
  · rintro ⟨rfl, stands⟩
    cases stands with
    | start => rfl
    | stdout carries decoded =>
      exact congrArg (Option.map stdout) (readData_eq_some.2 ⟨_, carries, decoded⟩)
    | stderr carries decoded =>
      exact congrArg (Option.map stderr) (readData_eq_some.2 ⟨_, carries, decoded⟩)
    | finish record ends message => exact readFinish_eq_some.2 ⟨_, _, rfl, .finish record ends message⟩

theorem ofJson?_eq_some {document : Value} {e : Event} :
    ofJson? document = some e ↔ Denotes e document := by
  constructor
  · intro read
    unfold ofJson? at read
    split at read
    · split at read
      · rename_i text
        cases read
        rw [text]
        exact .bare
      · cases read
    · obtain ⟨⟨name, body⟩, only, read⟩ := Option.bind_eq_some_iff.1 read
      obtain ⟨rfl, stands⟩ := ofMember_eq_some.1 read
      rw [onlyMember?_eq_some.1 only]
      exact .tagged stands
  · intro denotes
    cases denotes with
    | bare => rfl
    | tagged stands => exact ofMember_eq_some.2 ⟨rfl, stands⟩

theorem denotes_member {e : Event} {name : String} {body : Value} :
    Denotes e (.record [(name, body)]) ↔ name = e.kind ∧ Body e body :=
  ofJson?_eq_some.symm.trans ofMember_eq_some

theorem Denotes.shape {e : Event} {document : Value} (denotes : Denotes e document) :
    document = .string (some "start") ∨ ∃ body, document = .object [(some e.kind, body)] := by
  cases denotes with
  | bare => exact .inl rfl
  | tagged => exact .inr ⟨_, rfl⟩

inductive Needs : String → List String → String → Prop where
  | stdout : Needs "stdout" dataFields "data"
  | stderr : Needs "stderr" dataFields "data"
  | finish : Needs "end" finishFields "exit_code"

theorem Needs.met {kind field : String} {fields : List String} (needs : Needs kind fields field)
    {e : Event} {body : Value} (same : kind = e.kind) (stands : Body e body) :
    IsRecord fields body ∧ ∃ v, Holds fields field v body := by
  cases needs with
  | stdout | stderr =>
    cases stands with
    | stdout carries | stderr carries => exact ⟨carries.record, _, carries.held⟩
    | _ => simp [kind] at same
  | finish =>
    cases stands with
    | finish record ends => exact ⟨record, _, ends⟩
    | _ => simp [kind] at same

theorem Needs.known {kind field : String} {fields : List String}
    (needs : Needs kind fields field) : field ∈ fields := by
  cases needs <;> decide

theorem Body.exitCode {e : Event} {body : Value} (same : "end" = e.kind) (stands : Body e body) :
    IsRecord finishFields body ∧
      ∃ code : Int32, Holds finishFields "exit_code" (.ofInt code.toInt) body := by
  cases stands with
  | finish record ends => exact ⟨record, _, ends⟩
  | _ => simp [kind] at same

-- Documents that are no event, by what is wrong with them.
inductive Faulty : Value → Prop where
  | word {t : Text} (other : t ≠ some "start") : Faulty (.string t)
  | members {members : List (Text × Value)} (count : members.length ≠ 1) :
      Faulty (.object members)
  | tag {name : Text} {body : Value} (unknown : ∀ e : Event, name ≠ some e.kind) :
      Faulty (.object [(name, body)])
  | repeated {kind field : String} {fields : List String} {named : Fields}
      (needs : Needs kind fields field) (twice : 2 ≤ (named.map (·.1)).count field) :
      Faulty (.record [(kind, .record named)])
  | missing {kind field : String} {fields : List String} {body : Value}
      (needs : Needs kind fields field) (nowhere : ∀ v, ¬ Holds fields field v body) :
      Faulty (.record [(kind, body)])
  | inexact {body v : Value} (held : Holds finishFields "exit_code" v body)
      (other : ∀ i, v ≠ .ofInt i) : Faulty (.record [("end", body)])
  | outside {body : Value} {i : Int} (held : Holds finishFields "exit_code" (.ofInt i) body)
      (range : i < -2147483648 ∨ 2147483648 ≤ i) : Faulty (.record [("end", body)])

theorem Faulty.not_denotes {document : Value} (faulty : Faulty document) (e : Event) :
    ¬ Denotes e document := by
  intro denotes
  have distinct : finishFields.Nodup := by decide
  cases faulty with
  | word other =>
    obtain same | ⟨_, same⟩ := denotes.shape
    · exact other (Value.string.inj same)
    · cases same
  | members count =>
    obtain same | ⟨_, same⟩ := denotes.shape
    · cases same
    · cases same
      exact count rfl
  | tag unknown =>
    obtain same | ⟨_, same⟩ := denotes.shape
    · cases same
    · cases same
      exact unknown e rfl
  | repeated needs twice =>
    obtain ⟨same, stands⟩ := denotes_member.1 denotes
    have once := isRecord_record.1 (needs.met same stands).1 _ needs.known
    omega
  | missing needs nowhere =>
    obtain ⟨same, stands⟩ := denotes_member.1 denotes
    obtain ⟨_, v, held⟩ := needs.met same stands
    exact nowhere v held
  | inexact held other =>
    obtain ⟨same, stands⟩ := denotes_member.1 denotes
    obtain ⟨record, code, ends⟩ := stands.exitCode same
    exact other _ (record.holds_unique distinct (.head _) held ends)
  | outside held range =>
    obtain ⟨same, stands⟩ := denotes_member.1 denotes
    obtain ⟨record, code, ends⟩ := stands.exitCode same
    have equal := congrArg int? (record.holds_unique distinct (.head _) held ends)
    rw [toInt?_ofInt, toInt?_ofInt] at equal
    have low := code.le_toInt
    have high := code.toInt_lt
    have value : _ = code.toInt := Option.some.inj equal
    omega

theorem decode_eq_ok {words : Json.Words} {line : List Char} {e : Event} :
    decode words line = .ok e ↔ ∃ document, Document line document ∧ Denotes e document := by
  have read : (parse line).bind ofJson? = some e ↔
      ∃ document, Document line document ∧ Denotes e document := by
    simp only [Option.bind_eq_some_iff, parse_eq_some, ofJson?_eq_some]
  rw [← read, decode]
  cases (parse line).bind ofJson? <;> simp

theorem decode_eq_malformed {words : Json.Words} {line : List Char}
    (other : ∀ e, decode words line ≠ .ok e) :
    decode words line = .error (unreadable words line) := by
  unfold decode at other ⊢
  split
  · rename_i e read
    rw [read] at other
    exact absurd rfl (other e)
  · rfl

-- A line is read as an event exactly if it is a document that denotes it. All other lines are
-- malformed: those whose document has a fault, and those with more than blanks behind an event.
theorem decode_one_variant (words : Json.Words) (line : List Char) :
    (∀ e, decode words line = .ok e ↔ ∃ document, Document line document ∧ Denotes e document) ∧
    ((∀ e, decode words line ≠ .ok e) → decode words line = .error (unreadable words line)) ∧
    (∀ document, Document line document → Faulty document →
      decode words line = .error (unreadable words line)) ∧
    ∀ e, decode words line = .ok e → ∀ rest, ¬ AllSpace rest →
      decode words (line ++ rest) = .error (unreadable words (line ++ rest)) := by
  refine ⟨fun e => decode_eq_ok, decode_eq_malformed, ?_, ?_⟩
  · intro document whole faulty
    refine decode_eq_malformed fun e read => ?_
    obtain ⟨other, same, denotes⟩ := decode_eq_ok.1 read
    cases whole.unique same
    exact faulty.not_denotes e denotes
  · intro e read rest more
    obtain ⟨document, whole, denotes⟩ := decode_eq_ok.1 read
    have stops : ∀ n, document = .number n → Stops rest := by
      rintro n rfl
      obtain same | ⟨_, same⟩ := denotes.shape <;> cases same
    have none := whole.parse_append stops
    rw [if_neg (mt skip_isEmpty.1 more)] at none
    rw [decode, none]
    rfl

theorem decode_one_variant_end :
    decode Json.wordless "\x7b\"end\":[3]\x7d".toList = .ok (.finish 3 "") ∧
      decode Json.wordless ("\x7b\"end\":[3]\x7d".toList ++ "3".toList) =
        .error (.malformed "invalid exec event: ") ∧
      decode Json.wordless "\x7b\"end\":\x7b\"exit_code\":2147483648\x7d\x7d".toList =
        .error (.malformed "invalid exec event: ") := by
  have read : decode Json.wordless "\x7b\"end\":[3]\x7d".toList = .ok (.finish 3 "") := by
    decide +kernel
  have more : ¬ AllSpace "3".toList := fun all => by simpa [isSpace] using all '3' (.head _)
  have large : parse "\x7b\"end\":\x7b\"exit_code\":2147483648\x7d\x7d".toList =
      some (.record [("end", .record [("exit_code", .ofInt 2147483648)])]) := by
    have printed : (Value.record [("end", .record [("exit_code", .ofInt 2147483648)])]).print =
        "\x7b\"end\":\x7b\"exit_code\":2147483648\x7d\x7d".toList := by decide +kernel
    rw [← printed, parse_print]
  have faulty : Faulty (.record [("end", .record [("exit_code", .ofInt 2147483648)])]) :=
    .outside (.member (.head _)) (by omega)
  exact ⟨read, (decode_one_variant Json.wordless _).2.2.2 _ read _ more,
    (decode_one_variant Json.wordless _).2.2.1 _ (parse_eq_some.1 large) faulty⟩

end Event

end ControlPlane
