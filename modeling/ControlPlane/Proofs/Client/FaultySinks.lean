import ControlPlane.Proofs.Client.Verdict
import Mathlib.Data.List.Permutation
-- Sinks that cut writes short, interrupt them or fail.
namespace ControlPlane

namespace Channel

theorem eq_or_other (c channel : Channel) : c = channel ∨ c = channel.other := by
  cases c <;> cases channel <;> simp [other]

theorem output_chunk (channel : Channel) (data : Bytes) (late : List Item) :
    channel.output (.ok (.chunk channel data) :: late) = data ++ channel.output late := by
  cases channel <;> rfl

end Channel

namespace Demux

def buffered (d : Demux) : Demux :=
  { d with stdout := d.stdout.buffered, stderr := d.stderr.buffered }

inductive WriteFails (d : Demux) (items front : List Item) (channel : Channel) (data : Bytes)
    (detail : String) : Prop where
  | mk {after : Demux} {pulls : List (Nat × Nat)} {outlet : Outlet} (late : List Item)
      (split : items = front ++ .ok (.chunk channel data) :: late)
      (passes : Passes d front after pulls)
      (failed : (after.outlet channel).writeAll data = (.error detail, outlet))

inductive FlushFails (d : Demux) (items front : List Item) (detail : String) : Prop where
  | mk {after : Demux} {pulls : List (Nat × Nat)} (code : Int32) (error : String)
      (split : items = front ++ [.ok (.finish code error)])
      (passes : Passes d front after pulls) (failed : after.flush = .error detail)

structure Aborted (d : Demux) (front : List Item) (channel : Channel) (data : Bytes)
    (detail : String) (r : Demuxed) : Prop where
  result : r.result = .error (.io detail)
  pulled : r.pulls.length = front.length + 1
  sink : ∃ taken, taken <+: data ∧ taken ≠ data ∧
    (d.outlet channel).Took (r.outlet channel) (channel.output front ++ taken)
  other : (d.outlet channel.other).Took (r.outlet channel.other) (channel.other.output front)

structure Weathers (d : Demux) (items : List Item) (r : Demuxed) : Prop where
  fronts : ∀ channel, ∃ taken, taken <+: channel.output items ∧
    (d.outlet channel).Took (r.outlet channel) taken
  pulls : r.pulls = (List.range r.pulls.length).map fun k => d.sizesWith (items.take k)
  willing : (∀ channel, (d.outlet channel).Willing) →
    r.result = (d.buffered.run items).result ∧
      ∀ channel, (r.outlet channel).content = ((d.buffered.run items).outlet channel).content
  written : ∀ {front channel data detail}, WriteFails d items front channel data detail →
    Aborted d front channel data detail r
  flushed : ∀ {front detail}, FlushFails d items front detail →
    r.result = .error (.io detail) ∧
      ∀ channel, (d.outlet channel).Took (r.outlet channel) (channel.output front)
  io : ∀ {detail}, r.result = .error (.io detail) →
    (∃ front channel data, WriteFails d items front channel data detail) ∨
      ∃ front, FlushFails d items front detail

variable {d after : Demux} {items front rest : List Item} {pulls : List (Nat × Nat)}
  {channel : Channel} {data : Bytes} {detail : String}

theorem run_failed {outlet : Outlet}
    (failed : (d.outlet channel).writeAll data = (.error detail, outlet)) (late : List Item) :
    d.run (.ok (.chunk channel data) :: late) =
      (d.withOutlet outlet channel).stop (.io detail) [d.sizes] := by
  rw [run_chunk, failed]

theorem took_failed {outlet : Outlet}
    (failed : (d.outlet channel).writeAll data = (.error detail, outlet)) :
    ∃ taken, taken <+: data ∧ taken ≠ data ∧ (d.outlet channel).Took outlet taken := by
  rcases (d.outlet channel).writeAll_took data with ⟨whole, _⟩ | ⟨_, taken, _, front, short, took⟩
  · rw [failed] at whole
    cases whole
  · rw [failed] at took
    exact ⟨taken, front, short, took⟩

theorem outlet_stop (d : Demux) (error : ClientError) (pulls : List (Nat × Nat)) (channel : Channel) :
    (d.stop error pulls).outlet channel = d.outlet channel := by
  cases channel <;> rfl

theorem outlet_withOutlet (d : Demux) (outlet : Outlet) (channel : Channel) :
    (d.withOutlet outlet channel).outlet channel = outlet := by
  cases channel <;> rfl

theorem outlet_other (d : Demux) (outlet : Outlet) (channel : Channel) :
    (d.withOutlet outlet channel).outlet channel.other = d.outlet channel.other := by
  cases channel <;> rfl

theorem Blocked.took (blocked : Blocked d rest) (c : Channel) :
    ∃ taken, taken <+: c.output rest ∧ (d.outlet c).Took ((d.run rest).outlet c) taken := by
  have nothing : (d.run rest).outlet c = d.outlet c →
      ∃ taken, taken <+: c.output rest ∧ (d.outlet c).Took ((d.run rest).outlet c) taken :=
    fun same => ⟨[], List.nil_prefix, same ▸ .nothing _⟩
  cases blocked with
  | nothing => exact nothing (by cases c <;> rfl)
  | fault fault late => exact nothing (by cases c <;> rfl)
  | secondStart begun late =>
    exact nothing (by rw [run_secondStart begun, outlet_stop])
  | finish code error late => exact nothing (by cases late <;> cases c <;> rfl)
  | @chunk channel data detail outlet failed late =>
    rw [run_failed failed, outlet_stop] at nothing ⊢
    rcases c.eq_or_other channel with rfl | rfl
    · obtain ⟨taken, front, _, took⟩ := took_failed failed
      rw [outlet_withOutlet, Channel.output_chunk]
      exact ⟨taken, front.trans (List.prefix_append _ _), took⟩
    · exact nothing (d.outlet_other outlet channel)

theorem Blocked.pulled (blocked : Blocked d rest) :
    (d.run rest).pulls = List.replicate (looked rest) d.sizes := by
  cases blocked with
  | nothing => rfl
  | fault fault late => rfl
  | secondStart begun late => exact congrArg Demuxed.pulls (run_secondStart begun late)
  | finish code error late => cases late <;> rfl
  | @chunk channel data detail outlet failed late =>
    rw [run_failed failed]
    cases channel <;> rfl

theorem ended_ne_io {outSize errSize : Nat} (code : Int32) (error detail : String) :
    ended code error outSize errSize ≠ .error (.io detail) := by
  unfold ended
  split
  · exact nofun
  · split <;> exact nofun

theorem Blocked.io (blocked : Blocked d rest) (failed : (d.run rest).result = .error (.io detail)) :
    (∃ channel data late outlet, rest = .ok (.chunk channel data) :: late ∧
      (d.outlet channel).writeAll data = (.error detail, outlet)) ∨
    ∃ code error, rest = [.ok (.finish code error)] ∧ d.flush = .error detail := by
  cases blocked with
  | nothing => cases failed
  | fault fault late => cases fault <;> cases failed
  | secondStart begun late =>
    rw [run_secondStart begun] at failed
    cases failed
  | finish code error late =>
    cases late with
    | nil =>
      refine .inr ⟨code, error, rfl, ?_⟩
      cases flushed : d.flush with
      | ok =>
        rw [Demux.run, Demux.finish, conclude_of_flush flushed] at failed
        exact absurd failed (ended_ne_io code error detail)
      | error reason =>
        rw [Demux.run, Demux.finish, conclude, flushed] at failed
        cases failed
        rfl
    | cons extra late => cases failed
  | @chunk channel data reason outlet refused late =>
    rw [run_failed refused] at failed
    cases failed
    exact .inl ⟨channel, data, late, outlet, rfl, refused⟩

theorem Passes.aborted {outlet : Outlet} (passes : Passes d front after pulls)
    (failed : (after.outlet channel).writeAll data = (.error detail, outlet)) (late : List Item) :
    Aborted d front channel data detail (d.run (front ++ .ok (.chunk channel data) :: late)) := by
  obtain ⟨taken, part, short, took⟩ := took_failed failed
  have sizes : pulls.length = front.length := by
    rw [passes.pulled_sizes, List.length_map, List.length_range]
  rw [passes.run, run_failed failed]
  refine ⟨rfl, ?_, ⟨taken, part, short, ?_⟩, ?_⟩
  · rw [Demuxed.behind, List.length_append, sizes]
    rfl
  · rw [Demuxed.outlet_behind, outlet_stop, outlet_withOutlet]
    exact (passes.took channel).trans took
  · rw [Demuxed.outlet_behind, outlet_stop, outlet_other]
    exact passes.took channel.other

theorem willing_buffered {stdout stderr : Outlet}
    (willing : ∀ channel, ((start stdout stderr).outlet channel).Willing) (items : List Item) :
    (demux items stdout stderr).result = (demux items stdout.buffered stderr.buffered).result ∧
      ∀ channel, ((demux items stdout stderr).outlet channel).content =
        ((demux items stdout.buffered stderr.buffered).outlet channel).content := by
  obtain ⟨front, rest, after, pulls, rfl, passes, blocked⟩ := exists_passes (start stdout stderr) items
  obtain ⟨front', rest', after', pulls', split, passes', blocked'⟩ :=
    exists_passes (start stdout.buffered stderr.buffered) (front ++ rest)
  have judged := passes.judged blocked willing
  have judged' := passes'.judged blocked'
    fun channel => by cases channel <;> exact Outlet.buffered_willing _
  obtain ⟨rfl, rfl⟩ := stop_unique judged.ongoing judged.halts judged'.ongoing judged'.halts split
  refine ⟨judged.result.trans judged'.result.symm, fun channel => ?_⟩
  rw [(judged.sinks channel).content, (judged'.sinks channel).content]
  cases channel <;> exact congrArg _ (Outlet.content_buffered _).symm

theorem demux_weathers (items : List Item) (stdout stderr : Outlet) :
    Weathers (start stdout stderr) items (demux items stdout stderr) := by
  obtain ⟨front, rest, after, pulls, rfl, passes, blocked⟩ := exists_passes (start stdout stderr) items
  have run : demux (front ++ rest) stdout stderr = (after.run rest).behind pulls := passes.run rest
  exact {
    fronts := by
      intro channel
      obtain ⟨taken, part, took⟩ := blocked.took channel
      refine ⟨channel.output front ++ taken, ?_, ?_⟩
      · rw [Channel.output_append]
        exact (List.prefix_append_right_inj _).2 part
      · rw [run, Demuxed.outlet_behind]
        exact (passes.took channel).trans took
    pulls := by
      have pulled : (demux (front ++ rest) stdout stderr).pulls = _ :=
        (congrArg Demuxed.pulls run).trans
          ((congrArg (pulls ++ ·) blocked.pulled).trans (passes.all_sizes rest))
      rw [pulled, List.length_map, List.length_range]
    willing := fun willing => willing_buffered willing _
    written := by
      rintro front' channel data detail ⟨late, split, passes', failed⟩
      rw [split]
      exact passes'.aborted failed late
    flushed := by
      rintro front' detail ⟨code, error, split, passes', failed⟩
      rw [split, demux, passes'.run, Demux.run, Demux.finish, conclude, failed]
      exact ⟨rfl, fun channel => by cases channel <;> exact passes'.took _⟩
    io := by
      intro detail failed
      rw [run] at failed
      rcases blocked.io failed with ⟨channel, data, late, outlet, rfl, refused⟩ |
        ⟨code, error, rfl, refused⟩
      · exact .inl ⟨front, channel, data, late, rfl, passes, refused⟩
      · exact .inr ⟨front, code, error, rfl, passes, refused⟩ }

def tightSink : Sink :=
  Limits.sink { Limits.none with limit := some 3, chunk := some 2, interrupts := true }

def tightItems : List Item :=
  [.ok .start, .ok (.stdout [104, 105]), .ok (.stderr [33]), .ok (.stdout [106, 107]),
    .ok (.finish 0 "")]

theorem demux_weathers_tight :
    WriteFails (start (some (.ofSink tightSink)) none) tightItems (tightItems.take 3) .stdout
      [106, 107] "sink closed" ∧
    Aborted (start (some (.ofSink tightSink)) none) (tightItems.take 3) .stdout [106, 107]
      "sink closed" (demux tightItems (some (.ofSink tightSink)) none) ∧
    (demux tightItems (some (.ofSink tightSink)) none).stdout.held = [104, 105, 106] := by
  have fails : WriteFails (start (some (.ofSink tightSink)) none) tightItems (tightItems.take 3)
      .stdout [106, 107] "sink closed" :=
    .mk [.ok (.finish 0 "")] rfl
      (.start rfl (.chunk .stdout [104, 105] (Prod.ext (by cbv) rfl)
        (.chunk .stderr [33] (Prod.ext (by cbv) rfl) (.nothing _))))
      (Prod.ext (by cbv) rfl)
  exact ⟨fails, (demux_weathers _ _ _).written fails, by cbv⟩

end Demux

end ControlPlane
