import ControlPlane.Proofs.Wire.RoundTrip
-- Which members an object may have that is read as a backend.
namespace ControlPlane

namespace Json

theorem readRecord_lookup {leftovers : Leftovers} {names : List String}
    {members : List (Text × Value)} {fields : Fields} {name : String} {v : Value}
    (read : readRecord leftovers names (.object members) = some fields) (known : name ∈ names)
    (member : (some name, v) ∈ members) : fields.lookup name = some v := by
  obtain ⟨named, rfl, rfl, distinct, _⟩ := readRecord_object read
  apply lookup_of_mem distinct
  obtain ⟨field, old, same⟩ := List.mem_map.1 member
  cases same
  exact List.mem_filter.2 ⟨old, List.contains_iff_mem.2 known⟩

end Json

namespace Wire

namespace BackendSpec

def variant : BackendSpec → String
  | .host => "host"
  | .docker .. => "docker"

def fields : BackendSpec → List String
  | .host => []
  | .docker .. => dockerFields

def isTag (m : Json.Text × Json.Value) : Bool := m.1 = some "type"

def Tagged (variant : String) (members : List (Json.Text × Json.Value)) : Prop :=
  members.filter isTag = [(some "type", .ofString variant)]

def Held (outer : Nat) (v : Json.Value) : Prop :=
  v.isPlain = true ∧ outer + v.depth ≤ nestingLimit

-- Every member is the tag or a field of the variant, and none occurs twice.
structure Strict (spec : BackendSpec) (members : List (Json.Text × Json.Value)) : Prop where
  known : ∀ m ∈ members, ∃ name ∈ "type" :: spec.fields, m.1 = some name
  distinct : (members.map (·.1)).Nodup

theorem ofJson?_object {outer : Nat} {members : List (Json.Text × Json.Value)}
    {spec : BackendSpec} : ofJson? outer (.object members) = some spec ↔
      Held outer (.object members) ∧ ∃ variant, Tagged variant members ∧
        ofMembers variant (members.filter fun m => !isTag m) = some spec := by
  have parts : members.partition (fun m => m.1 = some "type") =
      (members.filter isTag, members.filter fun m => !isTag m) := List.partition_eq_filter_filter
  unfold ofJson?
  dsimp only
  rw [parts]
  split
  · rename_i refused
    constructor
    · intro read
      cases read
    · rintro ⟨⟨plain, depth⟩, _⟩
      rcases refused with rough | deep
      · exact absurd plain rough
      · omega
  · rename_i kept
    rw [not_or, Decidable.not_not] at kept
    have held : Held outer (.object members) := ⟨kept.1, by omega⟩
    constructor
    · intro read
      split at read
      · rename_i tag variant tags
        dsimp only at tags read
        have first : (tag, Json.Value.string (some variant)) ∈ members.filter isTag := by
          rw [tags]
          exact .head _
        have name : tag = some "type" := of_decide_eq_true (List.mem_filter.1 first).2
        rw [name] at tags
        exact ⟨held, variant, tags, read⟩
      · cases read
    · rintro ⟨_, variant, tagged, read⟩
      unfold Tagged at tagged
      rw [tagged]
      exact read

theorem dockerOfFields_ne_host (fields : Json.Fields) : dockerOfFields fields ≠ some .host := by
  unfold dockerOfFields
  intro read
  obtain ⟨image, _, read⟩ := Option.bind_eq_some_iff.1 read
  obtain ⟨strategy, _, read⟩ := Option.bind_eq_some_iff.1 read
  obtain ⟨auth, _, read⟩ := Option.bind_eq_some_iff.1 read
  cases read

theorem ofMembers_host {variant : String} {rest : List (Json.Text × Json.Value)} :
    ofMembers variant rest = some .host ↔ variant = "host" := by
  unfold ofMembers
  constructor
  · intro read
    split at read
    · assumption
    · split at read
      · obtain ⟨fields, _, read⟩ := Option.bind_eq_some_iff.1 read
        exact absurd read (dockerOfFields_ne_host fields)
      · cases read
  · intro host
    rw [if_pos host]

theorem ofMembers_docker {variant : String} {rest : List (Json.Text × Json.Value)}
    {image : String} {strategy : Option PullStrategy} {auth : Option RegistryAuth}
    (read : ofMembers variant rest = some (.docker image strategy auth)) :
    variant = "docker" ∧
      ∃ fields, Json.readRecord .strict dockerFields (.object rest) = some fields := by
  unfold ofMembers at read
  split at read
  · cases read
  · split at read
    · rename_i docker
      obtain ⟨fields, record, _⟩ := Option.bind_eq_some_iff.1 read
      exact ⟨docker, fields, record⟩
    · cases read

theorem strict_of_docker {outer : Nat} {members : List (Json.Text × Json.Value)} {image : String}
    {strategy : Option PullStrategy} {auth : Option RegistryAuth}
    (read : ofJson? outer (.object members) = some (.docker image strategy auth)) :
    Tagged "docker" members ∧ Strict (.docker image strategy auth) members := by
  obtain ⟨_, variant, tagged, read⟩ := ofJson?_object.1 read
  obtain ⟨rfl, fields, record⟩ := ofMembers_docker read
  obtain ⟨known, distinct⟩ := Json.readRecord_strict record
  refine ⟨tagged, ?_, ?_⟩
  · intro m member
    cases tag : isTag m with
    | true => exact ⟨"type", .head _, of_decide_eq_true tag⟩
    | false =>
      have left : m ∈ members.filter fun m => !isTag m :=
        List.mem_filter.2 ⟨member, by rw [tag]; rfl⟩
      obtain ⟨name, field, same⟩ := known m left
      exact ⟨name, .tail _ field, same⟩
  · have perm := (List.filter_append_perm isTag members).map (·.1)
    rw [tagged, List.map_append] at perm
    refine perm.nodup_iff.1 (List.nodup_cons.2 ⟨?_, distinct⟩)
    intro again
    obtain ⟨m, left, same⟩ := List.mem_map.1 again
    have other := (List.mem_filter.1 left).2
    simp [isTag, same] at other

theorem strict_host_iff {members : List (Json.Text × Json.Value)} (tagged : Tagged "host" members) :
    Strict .host members ↔ members = [(some "type", .ofString "host")] := by
  constructor
  · intro strict
    have all : members.filter isTag = members := by
      apply List.filter_eq_self.2
      intro m member
      obtain ⟨name, field, same⟩ := strict.known m member
      cases List.mem_singleton.1 field
      exact decide_eq_true same
    rw [← all]
    exact tagged
  · rintro rfl
    constructor
    · intro m member
      cases List.mem_singleton.1 member
      exact ⟨"type", .head _, rfl⟩
    · exact List.nodup_cons.2 ⟨List.not_mem_nil, .nil⟩

theorem ofJson?_host {outer : Nat} {members : List (Json.Text × Json.Value)} :
    ofJson? outer (.object members) = some .host ↔
      Held outer (.object members) ∧ Tagged "host" members := by
  rw [ofJson?_object]
  constructor
  · rintro ⟨held, variant, tagged, read⟩
    cases ofMembers_host.1 read
    exact ⟨held, tagged⟩
  · rintro ⟨held, tagged⟩
    exact ⟨held, "host", tagged, ofMembers_host.2 rfl⟩

end BackendSpec

inductive StandsIn (backend : Json.Value) : Json.Value → Prop where
  | member {members : List (Json.Text × Json.Value)} (held : (some "backend", backend) ∈ members) :
      StandsIn backend (.object members)
  | first {rest : List Json.Value} : StandsIn backend (.array (backend :: rest))

theorem OpenOpts.backend_of_read {outer : Nat} {document backend : Json.Value} {opts : OpenOpts}
    (read : ofJson? outer document = some opts) (stands : StandsIn backend document) :
    BackendSpec.ofJson? (outer + 1) backend = some opts.backend := by
  unfold ofJson? at read
  obtain ⟨fields, record, read⟩ := Option.bind_eq_some_iff.1 read
  obtain ⟨spec, found, read⟩ := Option.bind_eq_some_iff.1 read
  obtain ⟨tags, _, read⟩ := Option.bind_eq_some_iff.1 read
  obtain ⟨labels, _, read⟩ := Option.bind_eq_some_iff.1 read
  cases read
  have here : fields.lookup "backend" = some backend := by
    cases stands with
    | member held => exact Json.readRecord_lookup record (.head _) held
    | first =>
      simp only [Json.readRecord] at record
      split at record
      · cases record
      · cases record
        rfl
  rw [Json.Fields.required, here] at found
  exact found

open BackendSpec

def HasBackend (text : String) (members : List (Json.Text × Json.Value)) : Prop :=
  ∃ document, Json.ofText? text = some document ∧ StandsIn (.object members) document

-- Whatever the order of its members and however deep their values, a docker object that is
-- read has no members but its own, each once. Of a host object this is so only if the tag is
-- all that it has: members beside the tag are taken and have no effect.
theorem OpenOpts.backend_strict_iff {text : String} {opts : OpenOpts}
    {members : List (Json.Text × Json.Value)}
    (read : (Json.ofText? text).bind (ofJson? 0) = some opts) (stands : HasBackend text members) :
    Tagged opts.backend.variant members ∧
      (Strict opts.backend members ↔
        (opts.backend = .host → members = [(some "type", .ofString "host")])) := by
  obtain ⟨document, parsed, here⟩ := stands
  rw [parsed, Option.bind_some] at read
  have backend := backend_of_read read here
  cases kind : opts.backend with
  | host =>
    rw [kind] at backend
    have tagged := (ofJson?_host.1 backend).2
    refine ⟨tagged, ?_⟩
    constructor
    · intro strict _
      exact (strict_host_iff tagged).1 strict
    · intro alone
      exact (strict_host_iff tagged).2 (alone rfl)
  | docker image strategy auth =>
    rw [kind] at backend
    obtain ⟨tagged, strict⟩ := strict_of_docker backend
    refine ⟨tagged, ?_⟩
    constructor
    · intro _ host
      cases host
    · intro _
      exact strict

def tagLast : List (Json.Text × Json.Value) :=
  [(some "image", .ofString "alpine"), (some "pull_strategy", .ofString "never"),
    (some "type", .ofString "docker")]

theorem read_text {document : Json.Value} {opts : OpenOpts}
    (read : OpenOpts.ofJson? 0 document = some opts) :
    (Json.ofText? document.text).bind (OpenOpts.ofJson? 0) = some opts := by
  rw [Json.ofText?_text, Option.bind_some, read]

theorem OpenOpts.backend_strict_tagLast :
    (Json.ofText? (Json.Value.array [.object tagLast]).text).bind (ofJson? 0) =
        some ⟨.docker "alpine" (some .never) none, .empty, []⟩ ∧
      HasBackend (Json.Value.array [.object tagLast]).text tagLast ∧
      Strict (.docker "alpine" (some .never) none) tagLast := by
  have read : (Json.ofText? (Json.Value.array [.object tagLast]).text).bind (ofJson? 0) =
      some ⟨.docker "alpine" (some .never) none, .empty, []⟩ := read_text rfl
  have stands : HasBackend (Json.Value.array [.object tagLast]).text tagLast :=
    ⟨_, Json.ofText?_text _, .first⟩
  refine ⟨read, stands, (backend_strict_iff read stands).2.2 ?_⟩
  intro host
  cases host

def misplaced : Json.Value :=
  .record [("backend", .record [("type", .ofString "host"), ("image", .ofString "a")])]

theorem misplaced_text :
    misplaced.text = "\x7b\"backend\":\x7b\"type\":\"host\",\"image\":\"a\"\x7d\x7d" := rfl

theorem OpenOpts.misplaced_ignored :
    ¬ ∀ text opts members, (Json.ofText? text).bind (ofJson? 0) = some opts →
      HasBackend text members → Strict opts.backend members := by
  intro always
  have stands : HasBackend misplaced.text
      [(some "type", .ofString "host"), (some "image", .ofString "a")] :=
    ⟨_, Json.ofText?_text _, .member (.head _)⟩
  have read : (Json.ofText? misplaced.text).bind (ofJson? 0) = some ⟨.host, .empty, []⟩ :=
    read_text rfl
  rw [misplaced_text] at read stands
  have strict := always _ _ _ read stands
  obtain ⟨name, field, same⟩ := strict.known (some "image", .ofString "a") (.tail _ (.head _))
  cases List.mem_singleton.1 field
  simp at same

end Wire

end ControlPlane
