import ControlPlane.Proofs.Client.Demux
-- With sinks that take everything, the taking of a stream is decided by its first element
-- that stops it and by what stands behind that one.
namespace ControlPlane

namespace Demux

inductive Stops (front : List Item) : Item → Prop where
  | fault (fault : StreamFault) : Stops front (.error fault)
  | secondStart (seen : .ok .start ∈ front) : Stops front (.ok .start)
  | finish (code : Int32) (error : String) : Stops front (.ok (.finish code error))

def Ongoing (front : List Item) : Prop :=
  ∀ earlier item later, front = earlier ++ item :: later → ¬ Stops earlier item

def Halts (front rest : List Item) : Prop := ∀ item late, rest = item :: late → Stops front item

def verdict (outSize errSize : Nat) : List Item → Except ClientError Outcome
  | [] => .error (.protocol .noEnd)
  | .error (.broken detail) :: _ => .error (.remote ("exec stream aborted: " ++ detail))
  | .error (.malformed detail) :: _ => .error (.protocol (.malformed detail))
  | [.ok (.finish code error)] => ended code error outSize errSize
  | .ok (.finish _ _) :: late :: _ => .error (.protocol (.afterEnd (itemKind late)))
  | .ok _ :: _ => .error (.protocol .secondStart)

-- How many elements are pulled from where the taking ends. Behind an end one more is asked for.
def looked : List Item → Nat
  | [] => 0
  | .ok (.finish _ _) :: _ :: _ => 2
  | _ :: _ => 1

structure Judged (d : Demux) (items front rest : List Item) (r : Demuxed) : Prop where
  split : items = front ++ rest
  ongoing : Ongoing front
  halts : Halts front rest
  result : r.result =
    verdict (Channel.stdout.output front).length (Channel.stderr.output front).length rest
  accepted : (∃ outcome, r.result = .ok outcome) ↔ rest = [.ok (.finish 0 "")]
  sinks : ∀ channel, (d.outlet channel).Took (r.outlet channel) (channel.output front)
  pulls : r.pulls = (List.range (front.length + looked rest)).map fun k => d.sizesWith (items.take k)

variable {d after : Demux} {front items rest : List Item} {pulls : List (Nat × Nat)}
  {outSize errSize : Nat}

theorem Passes.ongoing (passes : Passes d front after pulls) : Ongoing front := by
  intro earlier item later split stops
  rw [split] at passes
  obtain ⟨middle, one, two, before, behind⟩ := passes.split
  rcases behind.first with ⟨rfl, first⟩ | ⟨channel, data, rfl⟩
  · cases stops with
    | secondStart seen =>
      have begun : middle.started = true := before.started.2 (.inr seen)
      rw [first] at begun
      cases begun
  · cases channel <;> cases stops

theorem Blocked.halts (blocked : Blocked after rest)
    (willing : ∀ channel, (after.outlet channel).Willing)
    (started : after.started = true → .ok .start ∈ front) : Halts front rest := by
  rintro item late rfl
  cases blocked with
  | fault fault => exact .fault fault
  | secondStart begun => exact .secondStart (started begun)
  | finish code error => exact .finish code error
  | chunk failed => exact absurd failed (Outlet.writeAll_ne_error (willing _) _)

theorem Blocked.run (blocked : Blocked d rest) (willing : ∀ channel, (d.outlet channel).Willing) :
    d.run rest = ⟨verdict d.stdoutBytes d.stderrBytes rest, d.stdout, d.stderr,
      List.replicate (looked rest) d.sizes⟩ := by
  cases blocked with
  | nothing => rfl
  | fault fault late => cases fault <;> rfl
  | secondStart begun late => exact run_secondStart begun late
  | finish code error late =>
    cases late with
    | nil =>
      rw [Demux.run, Demux.finish, conclude_of_flush (flush_willing willing)]
      rfl
    | cons extra late => rfl
  | chunk failed => exact absurd failed (Outlet.writeAll_ne_error (willing _) _)

theorem ended_ok (code : Int32) (error : String) :
    (∃ outcome, ended code error outSize errSize = .ok outcome) ↔ code = 0 ∧ error = "" := by
  rw [ended]
  split
  · rename_i failed
    exact iff_of_false (by simp) fun fine => failed fine.2
  · rename_i empty
    split
    · rename_i nonzero
      exact iff_of_false (by simp) fun fine => nonzero fine.1
    · rename_i zero
      exact ⟨fun _ => ⟨Decidable.not_not.1 zero, Decidable.not_not.1 empty⟩, fun _ => ⟨_, rfl⟩⟩

theorem verdict_ok (halts : Halts front rest) :
    (∃ outcome, verdict outSize errSize rest = .ok outcome) ↔ rest = [.ok (.finish 0 "")] := by
  cases rest with
  | nil => exact ⟨nofun, nofun⟩
  | cons item late =>
    cases halts item late rfl with
    | fault fault => cases fault <;> exact ⟨nofun, nofun⟩
    | secondStart seen => exact ⟨nofun, nofun⟩
    | finish code error =>
      cases late with
      | nil =>
        rw [verdict, ended_ok]
        simp
      | cons extra late => exact ⟨nofun, nofun⟩

theorem sizesWith_looked (d : Demux) {k : Nat} (near : k < looked rest) :
    d.sizesWith (rest.take k) = d.sizes := by
  have first : k = 0 → d.sizesWith (rest.take k) = d.sizes := by
    rintro rfl
    exact d.sizesWith_nothing
  unfold looked at near
  split at near
  · exact absurd near (Nat.not_lt_zero k)
  · rename_i code error extra late
    rcases Nat.lt_succ_iff_lt_or_eq.1 near with zero | rfl
    · exact first (Nat.lt_one_iff.1 zero)
    · exact d.sizesWith_nothing
  · exact first (Nat.lt_one_iff.1 near)

theorem Passes.all_sizes (passes : Passes d front after pulls) (rest : List Item) :
    pulls ++ List.replicate (looked rest) after.sizes =
      (List.range (front.length + looked rest)).map fun k => d.sizesWith ((front ++ rest).take k) := by
  rw [List.range_add, List.map_append, List.map_map]
  congr 1
  · rw [passes.pulled_sizes]
    refine List.map_congr_left fun k member => ?_
    rw [List.take_append_of_le_length (Nat.le_of_lt (List.mem_range.1 member))]
  · refine (List.eq_replicate_iff.2 ⟨by simp, fun sizes member => ?_⟩).symm
    obtain ⟨k, near, rfl⟩ := List.mem_map.1 member
    rw [Function.comp_apply, List.take_length_add_append, ← passes.sizesWith,
      sizesWith_looked after (List.mem_range.1 near)]

theorem stop_unique {front' rest' : List Item} (ongoing : Ongoing front) (halts : Halts front rest)
    (ongoing' : Ongoing front') (halts' : Halts front' rest')
    (same : front ++ rest = front' ++ rest') : front = front' ∧ rest = rest' := by
  rcases List.append_eq_append_iff.1 same with ⟨more, longer, behind⟩ | ⟨more, longer, behind⟩
  · cases more with
    | nil => exact ⟨(longer.trans (List.append_nil _)).symm, behind⟩
    | cons item more => exact absurd (halts item _ behind) (ongoing' front item more longer)
  · cases more with
    | nil => exact ⟨longer.trans (List.append_nil _), behind.symm⟩
    | cons item more => exact absurd (halts' item _ behind) (ongoing front' item more longer)

theorem Passes.judged {stdout stderr : Outlet}
    (passes : Passes (Demux.start stdout stderr) front after pulls) (blocked : Blocked after rest)
    (willing : ∀ channel, ((Demux.start stdout stderr).outlet channel).Willing) :
    Judged (Demux.start stdout stderr) (front ++ rest) front rest
      (demux (front ++ rest) stdout stderr) := by
  have kept := passes.willing willing
  have halts : Halts front rest :=
    blocked.halts kept fun begun => (passes.started.1 begun).resolve_left nofun
  have outSize : after.stdoutBytes = (Channel.stdout.output front).length :=
    (passes.count .stdout).trans (Nat.zero_add _)
  have errSize : after.stderrBytes = (Channel.stderr.output front).length :=
    (passes.count .stderr).trans (Nat.zero_add _)
  rw [demux, passes.run, blocked.run kept, outSize, errSize]
  exact {
    split := rfl
    ongoing := passes.ongoing
    halts := halts
    result := rfl
    accepted := verdict_ok halts
    sinks := fun channel => by cases channel <;> exact passes.took _
    pulls := passes.all_sizes rest }

-- The element that stops a stream decides what its taking comes to. All data before it is
-- delivered, element by element, and nothing else.
theorem demux_judged (items : List Item) (stdout stderr : Outlet) (out : stdout.Willing)
    (err : stderr.Willing) :
    ∃ front rest, Judged (start stdout stderr) items front rest (demux items stdout stderr) := by
  obtain ⟨front, rest, after, pulls, rfl, passes, blocked⟩ := exists_passes (start stdout stderr) items
  have willing : ∀ channel, ((start stdout stderr).outlet channel).Willing
    | .stdout => out
    | .stderr => err
  exact ⟨front, rest, passes.judged blocked willing⟩

def lateEvents : List Event := [.start, .stdout [104], .stderr [33], .stdout [105]]

def lateItems : List Item :=
  lateEvents.map .ok ++ [.ok (.finish 0 ""), .error (.broken "connection reset")]

theorem demux_judged_late :
    Outlet.Willing (some (.ofSink .buffer)) ∧ Outlet.Willing none ∧
      (demux lateItems (some (.ofSink .buffer)) none).result =
        .error (.protocol (.afterEnd "undecodable")) ∧
      (demux lateItems (some (.ofSink .buffer)) none).stdout.held = [104, 105] := by
  have out : Outlet.Willing (some (.ofSink .buffer)) := by
    rintro filling ⟨⟩
    exact Sink.buffer_willing
  have err : Outlet.Willing none := nofun
  have ongoing : Ongoing (lateEvents.map .ok) := by
    have emits : Emits false [[104], [105]] [[33]] lateEvents :=
      .start (.stdout _ (.stderr _ (.stdout _ (.nothing _))))
    obtain ⟨after, pulls, passes⟩ := emits.passes (start none none) id
      fun channel => by cases channel <;> exact nofun
    exact passes.ongoing
  have halts : Halts (lateEvents.map .ok)
      [.ok (.finish 0 ""), .error (.broken "connection reset")] := by
    rintro item late ⟨⟩
    exact .finish 0 ""
  obtain ⟨front, rest, judged⟩ := demux_judged lateItems _ _ out err
  obtain ⟨rfl, rfl⟩ := stop_unique ongoing halts judged.ongoing judged.halts judged.split
  exact ⟨out, err, judged.result, (judged.sinks .stdout).held⟩

end Demux

end ControlPlane
