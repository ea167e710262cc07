import ControlPlane.Proofs.Text.Blank
import ControlPlane.Proofs.Text.Segments
import ControlPlane.Proofs.Volume.Names
import ControlPlane.Transfer.Glob
-- What the matches of a pattern are made of: names that the volume holds, and dots.
namespace ControlPlane

theorem literal?_cons {t : PatternToken} {ts : List PatternToken} {text : List Char}
    (literal : (Pattern.mk (t :: ts)).literal? = some text) :
    ∃ c rest, t = .char c ∧ (Pattern.mk ts).literal? = some rest ∧ text = c :: rest := by
  unfold Pattern.literal? at literal
  rw [List.mapM_cons] at literal
  cases t with
  | char c =>
    simp only [Option.bind_eq_bind, Option.bind_some, Option.bind_eq_some_iff] at literal
    obtain ⟨rest, others, same⟩ := literal
    exact ⟨c, rest, rfl, others, (Option.some.inj same).symm⟩
  | any => cases literal
  | star => cases literal
  | recursive => cases literal
  | within => cases literal
  | except => cases literal

theorem cons_of_map_ok {ε α : Type} {x : Except ε (List α)} {a : α} {made : List α}
    (ran : x.map (a :: ·) = .ok made) : ∃ rest, x = .ok rest ∧ made = a :: rest := by
  cases x with
  | error e => cases ran
  | ok rest => exact ⟨rest, rfl, (Except.ok.inj ran).symm⟩

theorem readPattern_literal {mode : PatternMode} {position : Nat} {first : Bool}
    {cs text : List Char} {tokens : List PatternToken}
    (read : readPattern mode position first cs = .ok tokens)
    (literal : (Pattern.mk tokens).literal? = some text) : mode = .plain ∧ text = cs := by
  fun_induction readPattern mode position first cs generalizing tokens text with
  | case1 =>
    cases read
    cases literal
    exact ⟨rfl, rfl⟩
  | case2 | case6 | case9 | case10 | case13 | case15 => cases read
  | case3 =>
    obtain ⟨others, _, rfl⟩ := cons_of_map_ok read
    obtain ⟨c, _, token, _⟩ := literal?_cons literal
    split at token <;> cases token
  | case4 | case12 | case14 =>
    rename_i ih
    cases (ih read literal).1
  | case5 | case8 | case11 =>
    obtain ⟨others, _, rfl⟩ := cons_of_map_ok read
    obtain ⟨c, _, token, _⟩ := literal?_cons literal
    cases token
  | case7 =>
    cases read
    obtain ⟨c, _, token, _⟩ := literal?_cons literal
    cases token
  | case16 =>
    rename_i ih
    obtain ⟨others, later, rfl⟩ := cons_of_map_ok read
    obtain ⟨c, rest, token, kept, rfl⟩ := literal?_cons literal
    cases token
    exact ⟨rfl, by rw [(ih later kept).2]⟩

theorem literal_of_read {text : String} {p : Pattern} {cs : List Char}
    (read : Pattern.read text = .ok p) (literal : p.literal? = some cs) : cs = text.toList := by
  unfold Pattern.read at read
  cases tokens : readPattern .plain 0 true text.toList with
  | error e => simp [tokens, Except.map] at read
  | ok ts =>
    simp only [tokens, Except.map, Except.ok.injEq] at read
    exact (readPattern_literal tokens (read ▸ literal)).2

namespace Glob

theorem read_of_mem_readAll {texts : List String} {ps : List Pattern} {p : Pattern}
    (read : readAll texts = .ok ps) (member : p ∈ ps) :
    ∃ text ∈ texts, Pattern.read text = .ok p := by
  induction texts generalizing ps with
  | nil =>
    cases read
    cases member
  | cons text rest ih =>
    unfold readAll at read
    split at read
    · cases read
    · rename_i q here
      obtain ⟨others, later, rfl⟩ := cons_of_map_ok read
      rcases List.mem_cons.1 member with rfl | deeper
      · exact ⟨text, by simp, here⟩
      · obtain ⟨t, present, same⟩ := ih later deeper
        exact ⟨t, by simp [present], same⟩

theorem mem_of_mem_collapse {ps : List Pattern} {p : Pattern} (member : p ∈ collapse ps) :
    p ∈ ps := by
  fun_induction collapse ps with
  | case1 p q rest both ih => exact List.mem_cons_of_mem _ (ih member)
  | case2 p q rest some ih =>
    rcases List.mem_cons.1 member with rfl | deeper
    · simp
    · exact List.mem_cons_of_mem _ (ih deeper)
  | case3 => exact member

theorem literal_component {src : String} {glob : Glob} {p : Pattern} {cs : List Char}
    (read : Glob.read src = .ok glob) (member : p ∈ glob.components)
    (literal : p.literal? = some cs) : String.ofList cs ∈ segments src := by
  unfold Glob.read at read
  split at read
  · cases read
  · cases all : readAll (componentsOf src) with
    | error e => simp [all, Except.map] at read
    | ok ps =>
      simp only [all, Except.map, Except.ok.injEq] at read
      subst read
      obtain ⟨text, present, one⟩ := read_of_mem_readAll all (mem_of_mem_collapse member)
      rw [literal_of_read one literal, String.ofList_toList]
      unfold componentsOf at present
      split at present
      · exact (List.dropLast_sublist _).subset present
      · exact present

def Held (v : Volume) (name : Name) : Prop :=
  ∃ place entries e, v.node? place = some (.dir entries) ∧ e ∈ entries ∧ e.1 = name

theorem Held.proper {v : Volume} {name : Name} (named : v.WellNamed) (held : Held v name) :
    isProperName name = true := by
  obtain ⟨place, entries, e, dir, member, rfl⟩ := held
  have inside : (Node.dir entries).isWellNamed = true := Node.wellNamed_get? named dir
  exact (wellNamed_of_mem (by simpa [Node.isWellNamed] using inside) member).1

inductive Added (v : Volume) (ps : List Pattern) : Name → Prop where
  | dot : Added v ps dot
  | up {p : Pattern} (member : p ∈ ps) (begins : p.startsWithDot = true)
      (matched : nameMatches p dotDot = true) : Added v ps dotDot
  | held {name : Name} (held : Held v name) : Added v ps name

variable {v : Volume} {dirsOnly : Bool} {ps : List Pattern} {place found : List Name}

theorem Added.mono {qs : List Pattern} {name : Name} (more : ∀ p ∈ ps, p ∈ qs)
    (added : Added v ps name) : Added v qs name := by
  cases added with
  | dot => exact .dot
  | up member begins matched => exact .up (more _ member) begins matched
  | held held => exact .held held

theorem held_of_stat {entries : Entries} {e : Name × Node}
    (dir : v.stat place = .ok (.dir entries)) (member : e ∈ entries) : Held v e.1 := by
  obtain ⟨at_, _, here⟩ := Volume.find_of_stat dir
  exact ⟨at_, entries, e, here, member, rfl⟩

theorem held_of_namesAt {name : Name} (member : name ∈ namesAt v place) : Held v name := by
  unfold namesAt at member
  split at member
  · rename_i entries dir
    obtain ⟨e, present, rfl⟩ := List.mem_map.1 member
    exact held_of_stat dir present
  · cases member

theorem held_of_hasEntry {name : Name} (entry : v.hasEntry place name = true) : Held v name := by
  unfold Volume.hasEntry at entry
  split at entry
  · rename_i entries dir
    obtain ⟨node, here⟩ := Option.isSome_iff_exists.1 entry
    exact held_of_stat dir (mem_of_lookup here)
  · cases entry

def Leads (place found : List Name) (ok : Name → Prop) : Prop :=
  ∃ added, found = place ++ added ∧ ∀ name ∈ added, ok name

theorem Leads.here {ok : Name → Prop} : Leads place place ok := ⟨[], by simp, by simp⟩

theorem Leads.step {ok : Name → Prop} {name : Name} (one : ok name)
    (more : Leads (place ++ [name]) found ok) : Leads place found ok := by
  obtain ⟨added, rfl, all⟩ := more
  refine ⟨name :: added, by simp, fun n member => ?_⟩
  rcases List.mem_cons.1 member with rfl | later
  · exact one
  · exact all n later

theorem Leads.trans {ok : Name → Prop} {middle : List Name} (one : Leads place middle ok)
    (two : Leads middle found ok) : Leads place found ok := by
  obtain ⟨first, rfl, here⟩ := one
  obtain ⟨second, rfl, there⟩ := two
  refine ⟨first ++ second, by simp, fun n member => ?_⟩
  rcases List.mem_append.1 member with left | right
  · exact here n left
  · exact there n right

theorem Leads.imp {ok good : Name → Prop} (imp : ∀ name, ok name → good name)
    (leads : Leads place found ok) : Leads place found good := by
  obtain ⟨added, same, all⟩ := leads
  exact ⟨added, same, fun name member => imp name (all name member)⟩

theorem placesBelow_leads {depth : Nat} (member : found ∈ placesBelow v depth place) :
    Leads place found (Held v) := by
  induction depth generalizing place with
  | zero => cases member
  | succ depth ih =>
    unfold placesBelow at member
    obtain ⟨name, here, below⟩ := List.mem_flatMap.1 member
    rcases List.mem_cons.1 below with rfl | deeper
    · exact .step (held_of_namesAt here) .here
    · exact .step (held_of_namesAt here) (ih deeper)

theorem lookUp_leads {cs : List Char} (noUp : cs ≠ "..".toList)
    (member : found ∈ lookUp v place (Utf8.encode cs)) : Leads place found (Added v ps) := by
  unfold lookUp at member
  split at member
  · split at member
    · cases List.mem_singleton.1 member
      exact .here
    · cases member
  · split at member
    · rename_i dots
      have single : Utf8.encode cs = dot := by
        refine dots.resolve_right fun up => noUp ?_
        have read := Utf8.decode?_encode cs
        rw [up] at read
        exact (Option.some.inj read).symm
      split at member
      · cases List.mem_singleton.1 member
        rw [single]
        exact .step .dot .here
      · cases member
    · split at member
      · rename_i entry
        cases List.mem_singleton.1 member
        exact .step (.held (held_of_hasEntry entry)) .here
      · cases member

theorem mem_dotsFor {p : Pattern} {name : Name} (member : name ∈ dotsFor p) :
    Added v (p :: ps) name := by
  unfold dotsFor at member
  split at member
  · rename_i begins
    obtain ⟨dots, matched⟩ := List.mem_filter.1 member
    rcases List.mem_cons.1 dots with rfl | single
    · exact .up (by simp) begins matched
    · cases List.mem_singleton.1 single
      exact .dot
  · cases member

theorem expand_leads {ps : List Pattern} {place : List Name}
    (noUp : ∀ p ∈ ps, p.literal? ≠ some "..".toList)
    (member : found ∈ expand v dirsOnly ps place) : Leads place found (Added v ps) := by
  match ps with
  | [] =>
    unfold expand at member
    split at member
    · cases member
    · cases List.mem_singleton.1 member
      exact .here
  | p :: rest =>
    have behind : ∀ {place}, found ∈ expand v dirsOnly rest place →
        Leads place found (Added v (p :: rest)) := fun later =>
      (expand_leads (fun q more => noUp q (by simp [more])) later).imp
        fun _ added => added.mono fun q more => by simp [more]
    unfold expand at member
    split at member
    · rename_i text literal
      obtain ⟨next, here, later⟩ := List.mem_flatMap.1 member
      refine .trans (lookUp_leads (fun up => noUp p (by simp) ?_) here) (behind later)
      rw [literal, up]
    · split at member
      · cases rest with
        | nil =>
          exact (placesBelow_leads (List.mem_filter.1 member).1).imp fun _ held => .held held
        | cons q rest =>
          obtain ⟨next, here, later⟩ := List.mem_flatMap.1 member
          split at later
          · refine .trans ((placesBelow_leads here).imp fun _ held => .held held) ?_
            exact (expand_leads (fun r more => noUp r (by simp [more])) later).imp
              fun _ added => added.mono fun r more => by simp [more]
          · cases later
      · split at member
        · obtain ⟨name, here, later⟩ := List.mem_flatMap.1 member
          refine .step ?_ (behind later)
          rcases List.mem_append.1 here with dots | entries
          · exact mem_dotsFor dots
          · exact .held (held_of_namesAt (List.mem_filter.1 entries).1)
        · cases member
termination_by ps.length

def trimDots (place : List Name) : List Name :=
  dropTrailing (· == dot) (place.dropWhile (· == dot))

theorem trimDots_parts (place : List Name) : ∃ front back, place = front ++ (trimDots place ++ back) ∧
    (∀ name ∈ front, name = dot) ∧ ∀ name ∈ back, name = dot := by
  obtain ⟨back, whole, dots⟩ := exists_dropTrailing (· == dot) (place.dropWhile (· == dot))
  refine ⟨place.takeWhile (· == dot), back, ?_, ?_, ?_⟩
  · rw [trimDots, ← whole, List.takeWhile_append_dropWhile]
  · intro name member
    simpa using List.mem_takeWhile_imp member
  · intro name member
    simpa using dots name member

theorem mem_of_mem_trimDots {name : Name} (member : name ∈ trimDots place) : name ∈ place := by
  obtain ⟨front, back, whole, _⟩ := trimDots_parts place
  rw [whole]
  simp [member]

theorem trimDots_ends (some : trimDots place ≠ []) :
    ∃ front last, trimDots place = front ++ [last] ∧ last ≠ dot := by
  obtain ⟨front, last, ends, other⟩ := dropTrailing_ends some
  exact ⟨front, last, ends, by simpa using other⟩

theorem backslash_notMem_lossyTextOf {name : Name} (plain : 92 ∉ name) :
    '\\' ∉ (lossyTextOf name).toList := by
  intro back
  have inside := Utf8.infix_of_mem_decodeLossy (by simpa [lossyTextOf] using back) (by decide)
  exact plain (inside.subset (by decide))

theorem plainSlashes_eq_self {text : String} (plain : '\\' ∉ text.toList) :
    plainSlashes text = text := by
  unfold plainSlashes
  rw [List.map_congr_left (g := id), List.map_id, String.ofList_toList]
  intro c member
  have other : c ≠ '\\' := fun same => plain (same ▸ member)
  simp [other]

theorem placeText_of_plain (plain : ∀ name ∈ place, 92 ∉ name) :
    placeText place = joinNames ((trimDots place).map lossyTextOf) := by
  rw [placeText, ← trimDots]
  apply plainSlashes_eq_self
  intro back
  cases mem_joinNames back with
  | inl slash => cases slash
  | inr inside =>
    obtain ⟨text, member, here⟩ := inside
    obtain ⟨name, present, rfl⟩ := List.mem_map.1 member
    exact backslash_notMem_lossyTextOf (plain name (mem_of_mem_trimDots present)) here

end Glob

end ControlPlane
