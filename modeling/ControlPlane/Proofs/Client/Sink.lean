import ControlPlane.Client.Sink
-- What a sink holds once data was written to it: all of the data, or what it took before
-- it failed.
namespace ControlPlane

-- A sink that takes everything in the end. It may take any part of a write, and it may be
-- interrupted.
structure Sink.Willing (sink : Sink) : Prop where
  takes : ∀ writes held data, data ≠ [] → sink.write writes held data = .interrupted ∨
    ∃ n, sink.write writes held data = .took (n + 1)
  flushes : ∀ writes held, sink.flush writes held = .ok ()

theorem Sink.buffer_willing : Sink.buffer.Willing where
  takes _ _ data some := by
    obtain ⟨b, rest, rfl⟩ := List.exists_cons_of_ne_nil some
    exact .inr ⟨rest.length, rfl⟩
  flushes _ _ := rfl

namespace Filling

def buffered (writes : Nat) (held : Bytes) : Filling := ⟨.buffer, writes, held⟩

inductive Wrote (before after : Filling) (data : Bytes) : Except String Unit → Prop where
  | whole (same : after.sink = before.sink) (held : after.held = before.held ++ data) :
      Wrote before after data (.ok ())
  | part (detail : String) (taken : Bytes) (same : after.sink = before.sink)
      (front : taken <+: data) (short : taken ≠ data)
      (held : after.held = before.held ++ taken) : Wrote before after data (.error detail)

theorem Wrote.behind {before middle after : Filling} {front data : Bytes}
    {result : Except String Unit} (wrote : Wrote middle after data result)
    (same : middle.sink = before.sink) (held : middle.held = before.held ++ front) :
    Wrote before after (front ++ data) result := by
  cases wrote with
  | whole same' held' =>
    exact .whole (same'.trans same) (by rw [held', held, List.append_assoc])
  | part detail taken same' part short held' =>
    refine .part detail (front ++ taken) (same'.trans same)
      ((List.prefix_append_right_inj front).2 part) ?_ (by rw [held', held, List.append_assoc])
    exact fun whole => short (List.append_cancel_left whole)

theorem writeAll_wrote (filling : Filling) (data : Bytes) :
    Wrote filling (filling.writeAll data).2 data (filling.writeAll data).1 := by
  fun_induction writeAll filling data with
  | case1 filling => exact .whole rfl (List.append_nil _).symm
  | case2 filling b rest reply ih =>
    have sink : filling.again.sink = filling.sink := rfl
    have held : filling.again.held = filling.held ++ [] := (List.append_nil _).symm
    exact ih.behind sink held
  | case3 filling b rest reply =>
    exact .part _ [] rfl List.nil_prefix (by simp) (List.append_nil _).symm
  | case4 filling b rest n reply ih =>
    have all : b :: rest = b :: rest.take n ++ rest.drop n := by
      rw [List.cons_append, List.take_append_drop]
    rw [all]
    exact ih.behind rfl rfl
  | case5 filling b rest detail reply =>
    exact .part _ [] rfl List.nil_prefix (by simp) (List.append_nil _).symm

theorem writeAll_willing (filling : Filling) (willing : filling.sink.Willing) (data : Bytes) :
    (filling.writeAll data).1 = .ok () := by
  fun_induction writeAll filling data with
  | case1 => rfl
  | case2 filling b rest reply ih => exact ih willing
  | case3 filling b rest reply =>
    rcases willing.takes filling.writes filling.held (b :: rest) (by simp) with
      interrupted | ⟨n, took⟩
    · cases reply.symm.trans interrupted
    · cases reply.symm.trans took
  | case4 filling b rest n reply ih => exact ih willing
  | case5 filling b rest detail reply =>
    rcases willing.takes filling.writes filling.held (b :: rest) (by simp) with
      interrupted | ⟨n, took⟩
    · cases reply.symm.trans interrupted
    · cases reply.symm.trans took

end Filling

namespace Outlet

def content (outlet : Outlet) : Option Bytes := outlet.map Filling.held

def heldWith (outlet : Outlet) (data : Bytes) : Bytes := (outlet.content.map (· ++ data)).getD []

def buffered (outlet : Outlet) : Outlet := outlet.map fun f => .buffered f.writes f.held

def Willing (outlet : Outlet) : Prop := ∀ filling ∈ outlet, filling.sink.Willing

structure Took (before after : Outlet) (data : Bytes) : Prop where
  sink : after.map Filling.sink = before.map Filling.sink
  content : after.content = before.content.map (· ++ data)

variable {before middle after outlet : Outlet} {data more : Bytes}

theorem Took.nothing (outlet : Outlet) : Took outlet outlet [] where
  sink := rfl
  content := by cases outlet <;> simp [Outlet.content]

theorem Took.trans (one : Took before middle data) (two : Took middle after more) :
    Took before after (data ++ more) where
  sink := two.sink.trans one.sink
  content := by
    rw [two.content, one.content, Option.map_map]
    simp only [Function.comp_def, List.append_assoc]

theorem Took.held (took : Took before after data) : after.held = before.heldWith data := by
  rw [heldWith, ← took.content]
  cases after <;> rfl

theorem Took.heldWith (took : Took before after data) :
    after.heldWith more = before.heldWith (data ++ more) := by
  simp only [Outlet.heldWith, took.content, Option.map_map, Function.comp_def, List.append_assoc]

theorem heldWith_nothing (outlet : Outlet) : outlet.heldWith [] = outlet.held :=
  (Took.nothing outlet).held.symm

theorem Took.willing (took : Took before after data) (willing : before.Willing) :
    after.Willing := by
  intro filling member
  have sinks := took.sink
  rw [Option.mem_def.1 member] at sinks
  obtain ⟨first, there, same⟩ := Option.map_eq_some_iff.1 sinks.symm
  rw [← same]
  exact willing first there

theorem took_of_some {filling filled : Filling} (same : filled.sink = filling.sink)
    (held : filled.held = filling.held ++ data) : Took (some filling) (some filled) data where
  sink := by rw [Option.map_some, Option.map_some, same]
  content := by simp only [Outlet.content, Option.map_some, held]

theorem writeAll_took (outlet : Outlet) (data : Bytes) :
    ((outlet.writeAll data).1 = .ok () ∧ Took outlet (outlet.writeAll data).2 data) ∨
      ∃ detail taken, (outlet.writeAll data).1 = .error detail ∧ taken <+: data ∧ taken ≠ data ∧
        Took outlet (outlet.writeAll data).2 taken := by
  cases outlet with
  | none => exact .inl ⟨rfl, rfl, rfl⟩
  | some filling =>
    have wrote := filling.writeAll_wrote data
    simp only [writeAll]
    generalize (filling.writeAll data).1 = result at wrote ⊢
    cases wrote with
    | whole same held => exact .inl ⟨rfl, took_of_some same held⟩
    | part detail taken same front short held =>
      exact .inr ⟨detail, taken, rfl, front, short, took_of_some same held⟩

theorem writeAll_willing (willing : outlet.Willing) (data : Bytes) :
    (outlet.writeAll data).1 = .ok () := by
  cases outlet with
  | none => rfl
  | some filling => exact filling.writeAll_willing (willing filling rfl) data

theorem writeAll_ne_error (willing : outlet.Willing) (detail : String) :
    outlet.writeAll data ≠ (.error detail, after) := by
  intro failed
  rw [Prod.ext_iff, writeAll_willing willing] at failed
  cases failed.1

theorem flush_willing (willing : outlet.Willing) : outlet.flush = .ok () := by
  cases outlet with
  | none => rfl
  | some filling => exact (willing filling rfl).flushes _ _

theorem buffered_willing (outlet : Outlet) : outlet.buffered.Willing := by
  intro filling member
  obtain ⟨first, _, rfl⟩ := Option.map_eq_some_iff.1 (Option.mem_def.1 member)
  exact Sink.buffer_willing

theorem content_buffered (outlet : Outlet) : outlet.buffered.content = outlet.content := by
  cases outlet <;> rfl

end Outlet

end ControlPlane
