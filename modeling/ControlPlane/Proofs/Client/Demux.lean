import ControlPlane.Client.Handle
import ControlPlane.Executor.Host
import ControlPlane.Proofs.Client.Sink
-- How far the taking of a stream gets, what the sinks hold then, and how it ends.
namespace ControlPlane

-- The events of a command that sends these chunks of output, in any order of the two
-- kinds, and says at most once that it started. The flag tells that it has said so.
inductive Emits : Bool → List Bytes → List Bytes → List Event → Prop where
  | nothing (started : Bool) : Emits started [] [] []
  | start {outs errs : List Bytes} {events : List Event} (rest : Emits true outs errs events) :
      Emits false outs errs (.start :: events)
  | stdout {started : Bool} {outs errs : List Bytes} {events : List Event} (data : Bytes)
      (rest : Emits started outs errs events) :
      Emits started (data :: outs) errs (.stdout data :: events)
  | stderr {started : Bool} {outs errs : List Bytes} {events : List Event} (data : Bytes)
      (rest : Emits started outs errs events) :
      Emits started outs (data :: errs) (.stderr data :: events)

namespace Channel

def other : Channel → Channel
  | .stdout => .stderr
  | .stderr => .stdout

def dataOf : Channel → Item → Bytes
  | .stdout, .ok (.stdout data) => data
  | .stderr, .ok (.stderr data) => data
  | _, _ => []

def output (channel : Channel) (items : List Item) : Bytes := items.flatMap channel.dataOf

theorem output_append (channel : Channel) (front rest : List Item) :
    channel.output (front ++ rest) = channel.output front ++ channel.output rest :=
  List.flatMap_append

end Channel

def Event.chunk : Channel → Bytes → Event
  | .stdout => .stdout
  | .stderr => .stderr

def Demuxed.outlet (r : Demuxed) : Channel → Outlet
  | .stdout => r.stdout
  | .stderr => r.stderr

def Demuxed.behind (r : Demuxed) (pulls : List (Nat × Nat)) : Demuxed :=
  { r with pulls := pulls ++ r.pulls }

theorem Demuxed.outlet_behind (r : Demuxed) (pulls : List (Nat × Nat)) (channel : Channel) :
    (r.behind pulls).outlet channel = r.outlet channel := by
  cases channel <;> rfl

namespace Demux

def outlet (d : Demux) : Channel → Outlet
  | .stdout => d.stdout
  | .stderr => d.stderr

def count (d : Demux) : Channel → Nat
  | .stdout => d.stdoutBytes
  | .stderr => d.stderrBytes

def withOutlet (d : Demux) (outlet : Outlet) : Channel → Demux
  | .stdout => { d with stdout := outlet }
  | .stderr => { d with stderr := outlet }

def counting (d : Demux) (size : Nat) : Channel → Demux
  | .stdout => { d with stdoutBytes := d.stdoutBytes + size }
  | .stderr => { d with stderrBytes := d.stderrBytes + size }

def sizeWith (d : Demux) (front : List Item) (channel : Channel) : Nat :=
  ((d.outlet channel).heldWith (channel.output front)).length

def sizesWith (d : Demux) (front : List Item) : Nat × Nat :=
  (d.sizeWith front .stdout, d.sizeWith front .stderr)

inductive Passes : Demux → List Item → Demux → List (Nat × Nat) → Prop where
  | nothing (d : Demux) : Passes d [] d []
  | start {d after : Demux} {items : List Item} {pulls : List (Nat × Nat)}
      (fresh : d.started = false) (rest : Passes { d with started := true } items after pulls) :
      Passes d (.ok .start :: items) after (d.sizes :: pulls)
  | chunk {d after : Demux} {items : List Item} {pulls : List (Nat × Nat)} (channel : Channel)
      (data : Bytes) {outlet : Outlet}
      (wrote : (d.outlet channel).writeAll data = (.ok (), outlet))
      (rest : Passes ((d.withOutlet outlet channel).counting data.length channel) items after
        pulls) :
      Passes d (.ok (.chunk channel data) :: items) after (d.sizes :: pulls)

inductive Blocked (d : Demux) : List Item → Prop where
  | nothing : Blocked d []
  | fault (fault : StreamFault) (late : List Item) : Blocked d (.error fault :: late)
  | secondStart (begun : d.started = true) (late : List Item) : Blocked d (.ok .start :: late)
  | finish (code : Int32) (error : String) (late : List Item) :
      Blocked d (.ok (.finish code error) :: late)
  | chunk {channel : Channel} {data : Bytes} {detail : String} {outlet : Outlet}
      (failed : (d.outlet channel).writeAll data = (.error detail, outlet)) (late : List Item) :
      Blocked d (.ok (.chunk channel data) :: late)

variable {d after : Demux} {front items rest late : List Item} {pulls : List (Nat × Nat)}
  {channel : Channel} {data : Bytes} {outlet : Outlet}

theorem run_chunk (d : Demux) (channel : Channel) (data : Bytes) (items : List Item) :
    d.run (.ok (.chunk channel data) :: items) =
      match (d.outlet channel).writeAll data with
      | (.error detail, outlet) => (d.withOutlet outlet channel).stop (.io detail) [d.sizes]
      | (.ok (), outlet) =>
        pulled d.sizes (((d.withOutlet outlet channel).counting data.length channel).run items) := by
  cases channel <;> rfl

theorem run_secondStart (begun : d.started = true) (late : List Item) :
    d.run (.ok .start :: late) = d.stop (.protocol .secondStart) [d.sizes] := by
  rw [Demux.run, if_pos begun]

theorem Passes.run (passes : Passes d front after pulls) (rest : List Item) :
    d.run (front ++ rest) = (after.run rest).behind pulls := by
  induction passes with
  | nothing d => rfl
  | start fresh _ ih =>
    rw [List.cons_append, Demux.run, if_neg (by rw [fresh]; decide), ih]
    rfl
  | chunk channel data wrote _ ih =>
    rw [List.cons_append, run_chunk, wrote]
    dsimp only
    rw [ih]
    rfl

theorem exists_passes (d : Demux) (items : List Item) : ∃ front rest after pulls,
    items = front ++ rest ∧ Passes d front after pulls ∧ Blocked after rest := by
  induction items generalizing d with
  | nil => exact ⟨[], [], d, [], rfl, .nothing d, .nothing⟩
  | cons item items ih =>
    -- A chunk is written, or its sink fails.
    have chunk : ∀ channel data, item = .ok (.chunk channel data) →
        ∃ front rest after pulls, item :: items = front ++ rest ∧ Passes d front after pulls ∧
          Blocked after rest := by
      rintro channel data rfl
      cases written : (d.outlet channel).writeAll data with
      | mk result outlet =>
        cases result with
        | error detail =>
          exact ⟨[], _, d, [], rfl, .nothing d, .chunk written items⟩
        | ok =>
          obtain ⟨front, rest, after, pulls, rfl, passes, blocked⟩ :=
            ih ((d.withOutlet outlet channel).counting data.length channel)
          exact ⟨_ :: front, rest, after, _, rfl, .chunk channel data written passes, blocked⟩
    cases item with
    | error fault => exact ⟨[], _, d, [], rfl, .nothing d, .fault fault items⟩
    | ok event =>
      cases event with
      | start =>
        cases begun : d.started with
        | true => exact ⟨[], _, d, [], rfl, .nothing d, .secondStart begun items⟩
        | false =>
          obtain ⟨front, rest, after, pulls, rfl, passes, blocked⟩ := ih { d with started := true }
          exact ⟨_ :: front, rest, after, _, rfl, .start begun passes, blocked⟩
      | stdout data => exact chunk .stdout data rfl
      | stderr data => exact chunk .stderr data rfl
      | finish code error => exact ⟨[], _, d, [], rfl, .nothing d, .finish code error items⟩

theorem Passes.first {item : Item} (passes : Passes d (item :: items) after pulls) :
    (item = .ok .start ∧ d.started = false) ∨ ∃ channel data, item = .ok (.chunk channel data) := by
  cases passes with
  | start fresh rest => exact .inl ⟨rfl, fresh⟩
  | chunk channel data wrote rest => exact .inr ⟨channel, data, rfl⟩

theorem Passes.split (passes : Passes d (front ++ rest) after pulls) :
    ∃ middle one two, Passes d front middle one ∧ Passes middle rest after two := by
  induction front generalizing d pulls with
  | nil => exact ⟨d, [], pulls, .nothing d, passes⟩
  | cons item front ih =>
    cases passes with
    | start fresh passes =>
      obtain ⟨middle, one, two, before, behind⟩ := ih passes
      exact ⟨middle, _, two, .start fresh before, behind⟩
    | chunk channel data wrote passes =>
      obtain ⟨middle, one, two, before, behind⟩ := ih passes
      exact ⟨middle, _, two, .chunk channel data wrote before, behind⟩

theorem took_chunk (wrote : (d.outlet channel).writeAll data = (.ok (), outlet)) (size : Nat)
    (c : Channel) : (d.outlet c).Took (((d.withOutlet outlet channel).counting size channel).outlet c)
      (c.dataOf (.ok (.chunk channel data))) := by
  have whole : (d.outlet channel).Took outlet data := by
    rcases (d.outlet channel).writeAll_took data with ⟨_, took⟩ | ⟨detail, _, failed, _⟩
    · rwa [wrote] at took
    · rw [wrote] at failed
      cases failed
  cases channel <;> cases c
  · exact whole
  · exact .nothing d.stderr
  · exact .nothing d.stdout
  · exact whole

theorem Passes.took (passes : Passes d front after pulls) (channel : Channel) :
    (d.outlet channel).Took (after.outlet channel) (channel.output front) := by
  induction passes with
  | nothing d => exact .nothing (d.outlet channel)
  | @start d after items pulls fresh _ ih =>
    have same : channel.output (.ok .start :: items) = channel.output items := by cases channel <;> rfl
    rw [same]
    cases channel <;> exact ih
  | chunk c data wrote _ ih => exact (took_chunk wrote data.length channel).trans ih

theorem Passes.count (passes : Passes d front after pulls) (channel : Channel) :
    after.count channel = d.count channel + (channel.output front).length := by
  induction passes with
  | nothing d => rfl
  | start fresh _ ih => cases channel <;> exact ih
  | chunk c data wrote _ ih =>
    rw [ih]
    cases c <;> cases channel <;>
      simp [counting, withOutlet, Demux.count, Channel.output, Channel.dataOf, Event.chunk,
        Nat.add_assoc]

theorem Passes.started (passes : Passes d front after pulls) :
    after.started = true ↔ d.started = true ∨ .ok .start ∈ front := by
  induction passes with
  | nothing d => simp
  | start fresh _ ih => simp [ih]
  | chunk c data wrote _ ih =>
    cases c <;> simpa [Event.chunk, withOutlet, counting] using ih

theorem sizesWith_nothing (d : Demux) : d.sizesWith [] = d.sizes := by
  simp only [sizesWith, sizeWith, Channel.output, List.flatMap_nil, Outlet.heldWith_nothing]
  rfl

theorem Passes.sizesWith (passes : Passes d front after pulls) (items : List Item) :
    after.sizesWith items = d.sizesWith (front ++ items) := by
  simp only [Demux.sizesWith, sizeWith, (passes.took _).heldWith, Channel.output_append]

theorem Passes.sizes_cons {next : Demux} {item : Item} (handled : Passes d [item] next pulls)
    (items : List Item) :
    d.sizes :: ((List.range items.length).map fun k => next.sizesWith (items.take k)) =
      (List.range (item :: items).length).map fun k => d.sizesWith ((item :: items).take k) := by
  rw [List.length_cons, List.range_succ_eq_map, List.map_cons, List.map_map, List.take_zero,
    sizesWith_nothing]
  simp only [Function.comp_def, List.take_succ_cons, handled.sizesWith, List.singleton_append]

theorem Passes.pulled_sizes (passes : Passes d front after pulls) :
    pulls = (List.range front.length).map fun k => d.sizesWith (front.take k) := by
  induction passes with
  | nothing d => rfl
  | start fresh _ ih => rw [ih, sizes_cons (.start fresh (.nothing _))]
  | chunk channel data wrote _ ih =>
    rw [ih, sizes_cons (.chunk channel data wrote (.nothing _))]

theorem Passes.willing (passes : Passes d front after pulls)
    (willing : ∀ channel, (d.outlet channel).Willing) (channel : Channel) :
    (after.outlet channel).Willing :=
  (passes.took channel).willing (willing channel)

theorem flush_willing (willing : ∀ channel, (d.outlet channel).Willing) : d.flush = .ok () := by
  have stdout : d.stdout.flush = .ok () := Outlet.flush_willing (willing .stdout)
  have stderr : d.stderr.flush = .ok () := Outlet.flush_willing (willing .stderr)
  rw [flush, stdout]
  exact stderr

def ended (code : Int32) (error : String) (outSize errSize : Nat) : Except ClientError Outcome :=
  if error ≠ "" then .error (.remote error)
  else if code ≠ 0 then .error (.exit code)
  else .ok ⟨code, outSize, errSize⟩

theorem conclude_of_flush (flushed : d.flush = .ok ()) (code : Int32) (error : String) :
    d.conclude code error = ended code error d.stdoutBytes d.stderrBytes := by
  rw [conclude, flushed]
  rfl

end Demux

section

open Demux

variable {started : Bool} {outs errs : List Bytes} {events : List Event}

theorem Emits.passes (emits : Emits started outs errs events) (d : Demux)
    (begun : d.started = true → started = true)
    (willing : ∀ channel, (d.outlet channel).Willing) :
    ∃ after pulls, Passes d (events.map .ok) after pulls := by
  have chunk : ∀ (channel : Channel) (data : Bytes) (d : Demux),
      (∀ c, (d.outlet c).Willing) → ∃ next : Demux, next.started = d.started ∧
        ∀ items after pulls, Passes next items after pulls →
          Passes d (.ok (.chunk channel data) :: items) after (d.sizes :: pulls) := by
    intro channel data d willing
    have wrote : (d.outlet channel).writeAll data = (.ok (), ((d.outlet channel).writeAll data).2) :=
      Prod.ext (Outlet.writeAll_willing (willing channel) data) rfl
    exact ⟨_, by cases channel <;> rfl, fun items after pulls => .chunk channel data wrote⟩
  induction emits generalizing d with
  | nothing started => exact ⟨d, [], .nothing d⟩
  | start rest ih =>
    have fresh : d.started = false := Bool.eq_false_iff.2 fun seen => absurd (begun seen) (by decide)
    obtain ⟨after, pulls, passes⟩ := ih { d with started := true } (fun _ => rfl)
      (Passes.willing (.start fresh (.nothing _)) willing)
    exact ⟨after, _, .start fresh passes⟩
  | stdout data rest ih =>
    obtain ⟨next, same, step⟩ := chunk .stdout data d willing
    obtain ⟨after, pulls, passes⟩ := ih next (same ▸ begun)
      ((step [] next [] (.nothing next)).willing willing)
    exact ⟨after, _, step _ _ _ passes⟩
  | stderr data rest ih =>
    obtain ⟨next, same, step⟩ := chunk .stderr data d willing
    obtain ⟨after, pulls, passes⟩ := ih next (same ▸ begun)
      ((step [] next [] (.nothing next)).willing willing)
    exact ⟨after, _, step _ _ _ passes⟩

theorem Emits.output (emits : Emits started outs errs events) :
    Channel.stdout.output (events.map .ok) = outs.flatten ∧
      Channel.stderr.output (events.map .ok) = errs.flatten := by
  induction emits with
  | nothing started => exact ⟨rfl, rfl⟩
  | start rest ih => exact ih
  | stdout data rest ih => exact ⟨congrArg (data ++ ·) ih.1, ih.2⟩
  | stderr data rest ih => exact ⟨ih.1, congrArg (data ++ ·) ih.2⟩

theorem Captured.ofDemuxed_emits (emits : Emits false outs errs events) (code : Int32)
    (error : String) :
    Captured.ofDemuxed (demux (events.map .ok ++ [.ok (.finish code error)])
        (some (.ofSink .buffer)) (some (.ofSink .buffer))) =
      if error ≠ "" then .error (.remote error) else .ok ⟨code, outs.flatten, errs.flatten⟩ := by
  have willing : ∀ channel,
      ((Demux.start (some (.ofSink .buffer)) (some (.ofSink .buffer))).outlet channel).Willing := by
    intro channel filling member
    cases channel <;> cases member <;> exact Sink.buffer_willing
  obtain ⟨after, pulls, passes⟩ := emits.passes _ id willing
  have stdout : after.stdout.held = outs.flatten := (passes.took .stdout).held.trans emits.output.1
  have stderr : after.stderr.held = errs.flatten := (passes.took .stderr).held.trans emits.output.2
  have result : after.conclude code error = ended code error after.stdoutBytes after.stderrBytes :=
    conclude_of_flush (flush_willing (passes.willing willing)) code error
  rw [demux, passes.run, Demux.run, Demux.finish, Demuxed.behind, Captured.ofDemuxed, result,
    stdout, stderr, ended]
  by_cases failed : error ≠ ""
  · rw [if_pos failed, if_pos failed]
  · rw [if_neg failed, if_neg failed]
    by_cases nonzero : code ≠ 0
    · rw [if_pos nonzero]
    · rw [if_neg nonzero]

end

end ControlPlane
