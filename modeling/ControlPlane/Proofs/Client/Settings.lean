import ControlPlane.Client.Settings
import ControlPlane.Proofs.Text.Blank
import Mathlib.Data.List.Basic
-- What a client's settings are read from, and in which form they end up.
namespace ControlPlane

def Dangling (text : List Char) : Prop :=
  ∃ front slashes, text = front ++ slashes ∧ slashes ≠ [] ∧ (∀ c ∈ slashes, c = '/') ∧
    ∀ c, front.getLast? = some c → isBlank c = true

namespace Settings

def Given (lookup : String → Option String) (setting : Setting) (text : String) : Prop :=
  IsSolid text.toList ∧ ∃ value front back, lookup setting.variable = some value ∧
    value.toList = front ++ text.toList ++ back ∧ AllBlank front ∧ AllBlank back

def Missing (lookup : String → Option String) (setting : Setting) : Prop :=
  ∀ value, lookup setting.variable = some value → AllBlank value.toList

variable {lookup : String → Option String} {setting : Setting} {text : String} {s : Settings}

theorem Given.not_missing (given : Given lookup setting text) : ¬ Missing lookup setting := by
  obtain ⟨solid, value, front, back, here, whole, _⟩ := given
  intro missing
  have blank := missing value here
  obtain ⟨c, rest, begins, other⟩ := solid.begins
  have inside : c ∈ value.toList := by simp [whole, begins]
  rw [blank c inside] at other
  cases other

theorem exists_given (there : ¬ Missing lookup setting) : ∃ text, Given lookup setting text := by
  simp only [Missing, not_forall] at there
  obtain ⟨value, here, solid⟩ := there
  obtain ⟨front, text, back, whole, before, behind, is⟩ :=
    (blank_or_wrapped value.toList).resolve_left solid
  refine ⟨String.ofList text, ?_, value, front, back, here, ?_, before, behind⟩
  · simpa using is
  · simpa using whole

theorem required_missing (missing : Missing lookup setting) :
    required lookup setting = .error (.missingSetting setting) := by
  unfold required
  split
  · rename_i value here
    rw [if_pos (isBlankText_iff.2 (missing value here))]
  · rfl

theorem required_given (given : Given lookup setting text) :
    required lookup setting = .ok text := by
  have there := given.not_missing
  obtain ⟨solid, value, front, back, here, whole, before, behind⟩ := given
  have filled : ¬ isBlankText value = true := by
    intro blank
    apply there
    intro other same
    cases here.symm.trans same
    exact isBlankText_iff.1 blank
  have trimmed : trim value = text := by
    rw [trim, whole, trimList_wrapped before behind solid, String.ofList_toList]
  simp only [required, here, trimmed, if_neg filled]

theorem ofLookup_given {build socket : String} (first : Given lookup .buildId build)
    (second : Given lookup .socket socket) : ofLookup lookup = .ok (make build socket) := by
  rw [ofLookup, required_given first, required_given second]
  rfl

theorem ofLookup_no_buildId (missing : Missing lookup .buildId) :
    ofLookup lookup = .error (.missingSetting .buildId) := by
  rw [ofLookup, required_missing missing]
  rfl

theorem ofLookup_no_socket {build : String} (first : Given lookup .buildId build)
    (missing : Missing lookup .socket) : ofLookup lookup = .error (.missingSetting .socket) := by
  rw [ofLookup, required_given first, required_missing missing]
  rfl

theorem given_of_ofLookup (read : ofLookup lookup = .ok s) : ∃ build socket,
    Given lookup .buildId build ∧ Given lookup .socket socket ∧ s = make build socket := by
  by_cases first : Missing lookup .buildId
  · rw [ofLookup_no_buildId first] at read
    cases read
  · obtain ⟨build, given⟩ := exists_given first
    by_cases second : Missing lookup .socket
    · rw [ofLookup_no_socket given second] at read
      cases read
    · obtain ⟨socket, also⟩ := exists_given second
      rw [ofLookup_given given also] at read
      cases read
      exact ⟨build, socket, given, also, rfl⟩

theorem hasScheme_http (address : String) : hasScheme ("http://" ++ address) = true := by
  simp [hasScheme]

theorem hasScheme_baseUrl (s : Settings) : hasScheme s.baseUrl = true := by
  unfold baseUrl
  split
  · assumption
  · exact hasScheme_http s.address

theorem baseUrl_ends (filled : s.address ≠ "") :
    s.baseUrl.toList.getLast? = s.address.toList.getLast? := by
  unfold baseUrl
  split
  · rfl
  · rw [String.toList_append]
    exact List.getLast?_append_of_ne_nil _ (mt String.toList_eq_nil_iff.1 filled)

theorem baseUrl_bare (buildId : String) : (make buildId "http://").baseUrl = "http://http:" := by
  have address : trimSlashes "http://" = "http:" := by decide
  have bare : ¬ hasScheme "http:" = true := by decide
  rw [baseUrl, make, address, if_neg bare]
  rfl

theorem baseUrl_stable_iff (ends : s.address.toList.getLast? ≠ some '/') (buildId : String) :
    (make buildId s.baseUrl).baseUrl = s.baseUrl ↔ s.address ≠ "" := by
  constructor
  · intro stable none
    have bare : s.baseUrl = "http://" := by
      rw [baseUrl, none]
      rfl
    rw [bare, baseUrl_bare] at stable
    exact absurd stable (by decide)
  · intro filled
    have address : trimSlashes s.baseUrl = s.baseUrl := by
      apply trimSlashes_of_last
      rwa [baseUrl_ends filled]
    rw [baseUrl, make, address]
    exact if_pos (hasScheme_baseUrl s)

theorem trimSlashes_eq_empty : trimSlashes text = "" ↔ ∀ c ∈ text.toList, c = '/' := by
  constructor
  · intro none
    obtain ⟨tail, all, whole, _⟩ := exists_trimSlashes text
    rw [none] at whole
    rwa [whole]
  · intro all
    exact trimSlashes_eq rfl all (by decide)

theorem dangling_iff : Dangling text.toList ↔ trimSlashes text ≠ text ∧
    ∀ c, (trimSlashes text).toList.getLast? = some c → isBlank c = true := by
  constructor
  · rintro ⟨front, slashes, whole, some, all, blank⟩
    have left : trimSlashes text = String.ofList front := by
      apply trimSlashes_eq _ all
      · rw [String.toList_ofList]
        intro slash
        cases blank '/' slash
      · rwa [String.toList_ofList]
    rw [left, String.toList_ofList]
    refine ⟨fun same => some ?_, blank⟩
    rw [← same, String.toList_ofList] at whole
    exact List.append_cancel_left (whole.symm.trans (List.append_nil front).symm)
  · rintro ⟨other, blank⟩
    obtain ⟨slashes, all, whole, _⟩ := exists_trimSlashes text
    refine ⟨_, slashes, whole, fun none => ?_, all, blank⟩
    apply other
    apply String.toList_injective
    rw [whole, none, List.append_nil]

theorem trimSlashes_begins (solid : IsSolid text.toList) :
    ∀ c, (trimSlashes text).toList.head? = some c → isBlank c = false := by
  obtain ⟨slashes, _, whole, _⟩ := exists_trimSlashes text
  intro c head
  apply (isSolid_iff.1 solid).2.1
  rw [whole, List.head?_append, head]
  rfl

theorem trimSlashes_solid_iff (solid : IsSolid text.toList) :
    IsSolid (trimSlashes text).toList ↔ ¬ Dangling text.toList := by
  rw [dangling_iff]
  constructor
  · rintro left ⟨_, blank⟩
    obtain ⟨front, c, ends, other⟩ := left.ends
    rw [blank c (by rw [ends, List.getLast?_concat])] at other
    cases other
  · intro tidy
    by_cases same : trimSlashes text = text
    · rwa [same]
    · simp only [ne_eq, same, not_false_eq_true, true_and, not_forall] at tidy
      obtain ⟨c, final, other⟩ := tidy
      have some : (trimSlashes text).toList ≠ [] := by
        intro none
        rw [none] at final
        cases final
      refine isSolid_iff.2 ⟨some, trimSlashes_begins solid, fun d last => ?_⟩
      cases final.symm.trans last
      simpa using other

-- There are settings when both are there with a text, and the build id is the first to be
-- missed. Neither begins with a blank, the build id does not end in one, and the address has no
-- slash at its end. It has a text exactly when the setting is more than slashes, which is also
-- when its own base address stands for itself again, and a text without a blank behind it
-- exactly when the setting does not dangle.
theorem ofLookup_normalises (lookup : String → Option String) :
    ((∃ s, ofLookup lookup = .ok s) ↔ ∀ setting, ¬ Missing lookup setting) ∧
    (Missing lookup .buildId → ofLookup lookup = .error (.missingSetting .buildId)) ∧
    (¬ Missing lookup .buildId → Missing lookup .socket →
      ofLookup lookup = .error (.missingSetting .socket)) ∧
    ∀ s, ofLookup lookup = .ok s → Given lookup .buildId s.buildId.text ∧
      ∃ socket slashes, Given lookup .socket socket ∧ (∀ c ∈ slashes, c = '/') ∧
        socket.toList = s.address.toList ++ slashes ∧
        s.address.toList.getLast? ≠ some '/' ∧
        (∀ c, s.address.toList.head? = some c → isBlank c = false) ∧
        (s.address = "" ↔ ∀ c ∈ socket.toList, c = '/') ∧
        (IsSolid s.address.toList ↔ ¬ Dangling socket.toList) ∧
        ∀ buildId, (make buildId s.baseUrl).baseUrl = s.baseUrl ↔ s.address ≠ "" := by
  refine ⟨⟨?_, ?_⟩, ofLookup_no_buildId, ?_, ?_⟩
  · rintro ⟨s, read⟩ setting
    obtain ⟨build, socket, first, second, _⟩ := given_of_ofLookup read
    cases setting with
    | buildId => exact first.not_missing
    | socket => exact second.not_missing
  · intro there
    obtain ⟨build, first⟩ := exists_given (there .buildId)
    obtain ⟨socket, second⟩ := exists_given (there .socket)
    exact ⟨_, ofLookup_given first second⟩
  · intro there missing
    obtain ⟨build, first⟩ := exists_given there
    exact ofLookup_no_socket first missing
  · intro s read
    obtain ⟨build, socket, first, second, rfl⟩ := given_of_ofLookup read
    obtain ⟨slashes, all, whole, ends⟩ := exists_trimSlashes socket
    exact ⟨first, socket, slashes, second, all, whole, ends, trimSlashes_begins second.1,
      trimSlashes_eq_empty, trimSlashes_solid_iff second.1, baseUrl_stable_iff ends⟩

def environment (build socket : String) : String → Option String
  | "KNITA_BUILD_ID" => some build
  | "KNITA_SOCKET" => some socket
  | _ => none

theorem ofLookup_normalises_wrapped :
    ofLookup (environment " b-1\n" "\thttp://host:1// ") = .ok ⟨⟨"b-1"⟩, "http://host:1"⟩ ∧
      (make "b-2" "http://host:1").baseUrl = "http://host:1" ∧
      ¬ Missing (environment "b-1" "\t ") .buildId ∧ Missing (environment "b-1" "\t ") .socket ∧
      ofLookup (environment "b-1" "\t ") = .error (.missingSetting .socket) := by
  have read : ofLookup (environment " b-1\n" "\thttp://host:1// ") =
      .ok ⟨⟨"b-1"⟩, "http://host:1"⟩ := by decide +kernel
  obtain ⟨_, socket, slashes, _, _, _, _, _, _, _, stable⟩ :=
    (ofLookup_normalises _).2.2.2 _ read
  have again := (stable "b-2").2 (by decide)
  have there : ¬ Missing (environment "b-1" "\t ") .buildId := by
    intro missing
    have blank := missing "b-1" rfl 'b' (by decide)
    exact absurd blank (by decide)
  have missing : Missing (environment "b-1" "\t ") .socket := by
    intro value here
    cases here
    exact isBlankText_iff.1 (by decide)
  exact ⟨read, again, there, missing, (ofLookup_normalises _).2.2.1 there missing⟩

-- A slash behind a blank leaves the blank, and slashes alone leave no address.
theorem slashes_leave_blank :
    (¬ ∀ lookup s, ofLookup lookup = .ok s → IsSolid s.address.toList) ∧
    ¬ ∀ lookup s, ofLookup lookup = .ok s →
      (make s.buildId.text s.baseUrl).baseUrl = s.baseUrl := by
  constructor
  · intro always
    have read : ofLookup (environment "b" "x /") = .ok ⟨⟨"b"⟩, "x "⟩ := by decide +kernel
    have ends := (isSolid_iff.1 (always _ _ read)).2.2 ' ' (by decide)
    exact absurd ends (by decide)
  · intro always
    have read : ofLookup (environment "b" "/") = .ok ⟨⟨"b"⟩, ""⟩ := by decide +kernel
    have stable := always _ _ read
    exact absurd stable (by decide +kernel)

end Settings

end ControlPlane
