import ControlPlane.Proofs.Json.Record
import ControlPlane.Proofs.Json.RoundTrip
import ControlPlane.Proofs.Metadata
import ControlPlane.Proofs.Text.Utf8
import ControlPlane.Wire.Message
-- Messages are read as they were written.
namespace ControlPlane

theorem Json.ofText?_text (v : Json.Value) : Json.ofText? v.text = some v := by
  rw [Json.ofText?, Json.Value.text, String.toList_ofList, Json.parse_print]

theorem Json.charsOf_encode (cs : List Char) : Json.charsOf (Utf8.encode cs) = cs := by
  rw [Json.charsOf, Utf8.scan_encode, List.flatMap_map]
  exact List.flatMap_singleton' cs

theorem Json.ofBytes?_bytes (v : Json.Value) : Json.ofBytes? v.bytes = some v := by
  rw [Json.ofBytes?, Json.Value.bytes, Json.charsOf_encode, Json.parse_print]

namespace Wire

theorem tagsOfJson?_toJson (tags : Tags) : tagsOfJson? (tagsToJson tags) = some tags := by
  rw [tagsOfJson?, tagsToJson, Json.textMap?_record, Option.map_some, Tags.ofList_entries]

theorem BackendSpec.toJson_simple (b : BackendSpec) :
    b.toJson.isPlain = true ∧ b.toJson.depth ≤ 3 := by
  rcases b with _ | ⟨image, _ | strategy, _ | auth⟩
  · exact ⟨rfl, Nat.le_of_ble_eq_true rfl⟩
  · exact ⟨rfl, Nat.le_of_ble_eq_true rfl⟩
  · cases auth <;> exact ⟨rfl, Nat.le_refl 3⟩
  · cases strategy <;> exact ⟨rfl, Nat.le_of_ble_eq_true rfl⟩
  · cases strategy <;> cases auth <;> exact ⟨rfl, Nat.le_refl 3⟩

theorem BackendSpec.ofJson?_toJson {outer : Nat} (near : outer + 3 ≤ nestingLimit)
    (b : BackendSpec) : ofJson? outer b.toJson = some b := by
  obtain ⟨plain, depth⟩ := b.toJson_simple
  have held : ¬ (¬ b.toJson.isPlain = true ∨ outer + b.toJson.depth > nestingLimit) := by
    rintro (rough | deep)
    · exact rough plain
    · omega
  unfold ofJson?
  rw [if_neg held]
  rcases b with _ | ⟨image, _ | strategy, _ | auth⟩
  · rfl
  · rfl
  · cases auth <;> rfl
  · cases strategy <;> rfl
  · cases strategy <;> cases auth <;> rfl

theorem OpenOpts.ofJson?_toJson {outer : Nat} (near : outer + 4 ≤ nestingLimit) (o : OpenOpts) :
    ofJson? outer o.toJson = some o := by
  have backend : BackendSpec.ofJson? (outer + 1) o.backend.toJson = some o.backend :=
    BackendSpec.ofJson?_toJson (by omega) o.backend
  have fields := Json.readRecord_record .lenient ["backend", "tags", "labels"]
    ["backend", "tags", "labels"]
    [("backend", o.backend.toJson), ("tags", tagsToJson o.tags), ("labels", .ofStrings o.labels)]
    rfl (by decide) (by decide)
  rw [ofJson?, toJson, fields, Option.bind_eq_bind, Option.bind_some,
    Json.Fields.required_bind (by rfl) backend,
    Json.Fields.withDefault_bind (by rfl) (tagsOfJson?_toJson o.tags),
    Json.Fields.withDefault_bind (by rfl) (Json.texts?_ofStrings o.labels)]

theorem execOptsOfJson?_toJson (o : ExecOpts) : execOptsOfJson? (execOptsToJson o) = some o := by
  have fields := Json.readRecord_record .lenient ["name", "args", "env", "tags"]
    ["name", "args", "env", "tags"]
    [("name", .ofString o.name), ("args", .ofStrings o.args), ("env", .ofStrings o.env),
      ("tags", tagsToJson o.tags)] rfl (by decide) (by decide)
  rw [execOptsOfJson?, execOptsToJson, fields, Option.bind_eq_bind, Option.bind_some,
    Json.Fields.required_bind (by rfl) (Json.text?_ofString o.name),
    Json.Fields.withDefault_bind (by rfl) (Json.texts?_ofStrings o.args),
    Json.Fields.withDefault_bind (by rfl) (Json.texts?_ofStrings o.env),
    Json.Fields.withDefault_bind (by rfl) (tagsOfJson?_toJson o.tags)]

theorem transferOptsOfJson?_toJson (o : TransferOpts) :
    transferOptsOfJson? (transferOptsToJson o) = some o := by
  have fields := Json.readRecord_record .lenient ["dest", "excludes"] ["dest", "excludes"]
    [("dest", .ofString o.dest), ("excludes", .ofStrings o.excludes)] rfl (by decide) (by decide)
  rw [transferOptsOfJson?, transferOptsToJson, fields, Option.bind_eq_bind, Option.bind_some,
    Json.Fields.withDefault_bind (by rfl) (Json.text?_ofString o.dest),
    Json.Fields.withDefault_bind (by rfl) (Json.texts?_ofStrings o.excludes)]

theorem systemInfoOfJson?_toJson (s : SystemInfo) :
    systemInfoOfJson? (systemInfoToJson s) = some s := by
  have fields := Json.readRecord_record .lenient
    ["os", "arch", "total_cpu_cores", "total_memory"]
    ["os", "arch", "total_cpu_cores", "total_memory"]
    [("os", .ofString s.os), ("arch", .ofString s.arch),
      ("total_cpu_cores", .ofNat s.totalCpuCores.toNat),
      ("total_memory", .ofNat s.totalMemory.toNat)] rfl (by decide) (by decide)
  have cores := Json.natBelow?_ofNat s.totalCpuCores.toNat_lt
  have memory := Json.natBelow?_ofNat s.totalMemory.toNat_lt
  rw [systemInfoOfJson?, systemInfoToJson, fields, Option.bind_eq_bind, Option.bind_some,
    Json.Fields.required_bind (by rfl) (Json.text?_ofString s.os),
    Json.Fields.required_bind (by rfl) (Json.text?_ofString s.arch),
    Json.Fields.required_bind (by rfl) cores, Json.Fields.required_bind (by rfl) memory,
    UInt32.ofNat_toNat, UInt64.ofNat_toNat]

theorem OpenRequest.ofJson?_toJson (r : OpenRequest) : ofJson? r.toJson = some r := by
  have fields := Json.readRecord_record .lenient ["build_id", "opts"] ["build_id", "opts"]
    [("build_id", .ofString r.buildId), ("opts", r.opts.toJson)] rfl (by decide) (by decide)
  rw [ofJson?, toJson, fields, Option.bind_eq_bind, Option.bind_some,
    Json.Fields.required_bind (by rfl) (Json.text?_ofString r.buildId),
    Json.Fields.required_bind (by rfl) (OpenOpts.ofJson?_toJson (by decide) r.opts)]

theorem OpenResponse.ofJson?_toJson (r : OpenResponse) : ofJson? r.toJson = some r := by
  have fields := Json.readRecord_record .lenient
    ["runtime_id", "work_directory", "system_info"]
    ["runtime_id", "work_directory", "system_info"]
    [("runtime_id", .ofString r.runtimeId), ("work_directory", .ofString r.workDirectory),
      ("system_info", systemInfoToJson r.systemInfo)] rfl (by decide) (by decide)
  rw [ofJson?, toJson, fields, Option.bind_eq_bind, Option.bind_some,
    Json.Fields.required_bind (by rfl) (Json.text?_ofString r.runtimeId),
    Json.Fields.required_bind (by rfl) (Json.text?_ofString r.workDirectory),
    Json.Fields.required_bind (by rfl) (systemInfoOfJson?_toJson r.systemInfo)]

theorem ExecRequest.ofJson?_toJson (r : ExecRequest) : ofJson? r.toJson = some r := by
  have fields := Json.readRecord_record .lenient ["runtime_id", "opts"] ["runtime_id", "opts"]
    [("runtime_id", .ofString r.runtimeId), ("opts", execOptsToJson r.opts)] rfl (by decide)
    (by decide)
  rw [ofJson?, toJson, fields, Option.bind_eq_bind, Option.bind_some,
    Json.Fields.required_bind (by rfl) (Json.text?_ofString r.runtimeId),
    Json.Fields.required_bind (by rfl) (execOptsOfJson?_toJson r.opts)]

theorem TransferRequest.ofJson?_toJson (r : TransferRequest) : ofJson? r.toJson = some r := by
  have fields := Json.readRecord_record .lenient
    ["runtime_id", "src_path", "dest_path", "excludes"]
    ["runtime_id", "src_path", "dest_path", "excludes"]
    [("runtime_id", .ofString r.runtimeId), ("src_path", .ofString r.src),
      ("dest_path", .ofString r.dest), ("excludes", .ofStrings r.excludes)] rfl (by decide)
    (by decide)
  rw [ofJson?, toJson, fields, Option.bind_eq_bind, Option.bind_some,
    Json.Fields.required_bind (by rfl) (Json.text?_ofString r.runtimeId),
    Json.Fields.required_bind (by rfl) (Json.text?_ofString r.src),
    Json.Fields.withDefault_bind (by rfl) (Json.text?_ofString r.dest),
    Json.Fields.withDefault_bind (by rfl) (Json.texts?_ofStrings r.excludes)]

theorem CloseRequest.ofJson?_toJson (r : CloseRequest) : ofJson? r.toJson = some r := by
  have fields := Json.readRecord_record .lenient ["runtime_id"] ["runtime_id"]
    [("runtime_id", .ofString r.runtimeId)] rfl (by decide) (by decide)
  rw [ofJson?, toJson, fields, Option.bind_eq_bind, Option.bind_some,
    Json.Fields.required_bind (by rfl) (Json.text?_ofString r.runtimeId)]

theorem Empty.ofJson?_toJson (e : Empty) : ofJson? e.toJson = some e := rfl

theorem ErrorBody.ofJson?_toJson (b : ErrorBody) : ofJson? b.toJson = some b := by
  have fields := Json.readRecord_record .lenient ["message"] ["message"]
    [("message", .ofString b.message)] rfl (by decide) (by decide)
  rw [ofJson?, toJson, fields, Option.bind_eq_bind, Option.bind_some,
    Json.Fields.required_bind (by rfl) (Json.text?_ofString b.message)]

-- Every value is read back from the text that is written for it, and from its octets.
def ReadsBack {α : Type} (write : α → Json.Value) (read : Json.Value → Option α) : Prop :=
  ∀ a, (Json.ofText? (write a).text).bind read = some a ∧
    (Json.ofBytes? (write a).bytes).bind read = some a

theorem readsBack_of_document {α : Type} {write : α → Json.Value} {read : Json.Value → Option α}
    (back : ∀ a, read (write a) = some a) : ReadsBack write read := by
  intro a
  rw [Json.ofText?_text, Json.ofBytes?_bytes, Option.bind_some]
  exact ⟨back a, back a⟩

-- All that is sent, whatever texts, tags and numbers it holds. Options of a request may also
-- make up a document of their own.
theorem messages_read_back :
    ReadsBack OpenRequest.toJson OpenRequest.ofJson? ∧
    ReadsBack OpenResponse.toJson OpenResponse.ofJson? ∧
    ReadsBack ExecRequest.toJson ExecRequest.ofJson? ∧
    ReadsBack TransferRequest.toJson TransferRequest.ofJson? ∧
    ReadsBack CloseRequest.toJson CloseRequest.ofJson? ∧
    ReadsBack Empty.toJson Empty.ofJson? ∧
    ReadsBack ErrorBody.toJson ErrorBody.ofJson? ∧
    ReadsBack OpenOpts.toJson (OpenOpts.ofJson? 0) ∧
    ReadsBack systemInfoToJson systemInfoOfJson? ∧
    ReadsBack execOptsToJson execOptsOfJson? ∧
    ReadsBack transferOptsToJson transferOptsOfJson? := by
  refine ⟨?_, ?_, ?_, ?_, ?_, ?_, ?_, ?_, ?_, ?_, ?_⟩
  · exact readsBack_of_document OpenRequest.ofJson?_toJson
  · exact readsBack_of_document OpenResponse.ofJson?_toJson
  · exact readsBack_of_document ExecRequest.ofJson?_toJson
  · exact readsBack_of_document TransferRequest.ofJson?_toJson
  · exact readsBack_of_document CloseRequest.ofJson?_toJson
  · exact readsBack_of_document Empty.ofJson?_toJson
  · exact readsBack_of_document ErrorBody.ofJson?_toJson
  · exact readsBack_of_document (OpenOpts.ofJson?_toJson (by decide))
  · exact readsBack_of_document systemInfoOfJson?_toJson
  · exact readsBack_of_document execOptsOfJson?_toJson
  · exact readsBack_of_document transferOptsOfJson?_toJson

end Wire

end ControlPlane
