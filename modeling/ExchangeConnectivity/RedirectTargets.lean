import ExchangeConnectivity.RestClient
import ExchangeConnectivity.RestClientAsync
import ExchangeConnectivity.UriReferences
import Mathlib.Data.List.TakeWhile

/-!
# Targets of redirects

Both REST clients resolve a `Location` by the first `://` anywhere in it.  A
path with such a text in its query is taken for a URL, and what is taken for
the host of a reference is not always its host.
-/

namespace ExchangeConnectivity

open ByteStrings HttpExchange UriReferences

/-- The text that is taken for the host: what follows the first `://`, up to
the next `/` and the first `:` in it. -/
def takenForHost (rest : Bytes) : Bytes :=
  (rest.takeWhile (· ≠ '/'.toUInt8)).takeWhile (· ≠ ':'.toUInt8)

theorem extractRedirectPath_of_afterFirst {location rest : Bytes} (expectedHost : Bytes)
    (found : afterFirst (ascii "://") location = some rest) :
    extractRedirectPath location expectedHost =
      if toLower (takenForHost rest) ≠ toLower expectedHost then
        .error (ascii "Cross-host redirect not allowed: " ++ location)
      else if rest.dropWhile (· ≠ '/'.toUInt8) = [] then .ok (ascii "/")
      else .ok (rest.dropWhile (· ≠ '/'.toUInt8)) := by
  rw [extractRedirectPath, found]
  rfl

theorem extractRedirectPath_of_absent {location : Bytes} (expectedHost : Bytes)
    (absent : afterFirst (ascii "://") location = none) :
    extractRedirectPath location expectedHost =
      if location.head? = some '/'.toUInt8 then .ok location
      else .ok (ascii "/" ++ location) := by
  rw [extractRedirectPath, absent]

/-- What is left of a location with a `://` is shorter. -/
theorem extractRedirectPath_ne_ok_self {location rest : Bytes} (expectedHost : Bytes)
    (found : afterFirst (ascii "://") location = some rest) :
    extractRedirectPath location expectedHost ≠ .ok location := by
  obtain ⟨before, shape⟩ := eq_append_of_afterFirst found
  have longer : rest.length + 3 ≤ location.length := by
    rw [shape, List.length_append, List.length_append]
    have separator : (ascii "://").length = 3 := by decide
    omega
  have shorter := (List.dropWhile_suffix (· ≠ '/'.toUInt8) (l := rest)).length_le
  rw [extractRedirectPath_of_afterFirst expectedHost found]
  intro returned
  split_ifs at returned with foreign bare
  · have length := congrArg List.length (Except.ok.inj returned)
    have single : (ascii "/").length = 1 := by decide
    omega
  · have length := congrArg List.length (Except.ok.inj returned)
    omega

theorem extractRedirectPath_eq_self_iff {location : Bytes} (expectedHost : Bytes)
    (path : location.head? = some '/'.toUInt8) :
    extractRedirectPath location expectedHost = .ok location ↔
      ¬ ascii "://" <:+: location := by
  rw [← afterFirst_eq_none_iff]
  cases found : afterFirst (ascii "://") location with
  | none => simp [extractRedirectPath_of_absent expectedHost found, path]
  | some rest => simp [extractRedirectPath_ne_ok_self expectedHost found]

theorem resolveRedirect_ok_iff (config : RestClientAsync.Config) (location target : Bytes) :
    RestClientAsync.resolveRedirect config location = .ok target ↔
      extractRedirectPath location config.host = .ok target := by
  rw [RestClientAsync.resolveRedirect]
  cases extractRedirectPath location config.host <;> simp

/-- Both clients return a path as it is exactly when it contains no `://`. -/
theorem path_unchanged_iff (config : RestClientAsync.Config) {location : Bytes}
    (path : location.head? = some '/'.toUInt8) :
    (RestClient.resolveRedirect config.toClientConfig location = .ok location ∧
      RestClientAsync.resolveRedirect config location = .ok location) ↔
      ¬ ascii "://" <:+: location := by
  rw [resolveRedirect_ok_iff, RestClient.resolveRedirect, and_self]
  exact extractRedirectPath_eq_self_iff config.host path

def exampleConfig : RestClientAsync.Config where
  host := ascii "example.com"

theorem path_unchanged_home :
    RestClient.resolveRedirect exampleConfig.toClientConfig (ascii "/login?next=/home") =
        .ok (ascii "/login?next=/home") ∧
      RestClientAsync.resolveRedirect exampleConfig (ascii "/login?next=/home") =
        .ok (ascii "/login?next=/home") :=
  (path_unchanged_iff exampleConfig rfl).mpr
    (afterFirst_eq_none_iff.mp (by decide +kernel))

/-- A path with a URL in its query is refused, or cut down to the path of that
URL. -/
theorem path_with_url_changed :
    RestClientAsync.resolveRedirect exampleConfig (ascii "/login?return=https://other.com/") =
        .error .crossHostRedirect ∧
      RestClientAsync.resolveRedirect exampleConfig
          (ascii "/login?return=https://example.com/home") = .ok (ascii "/home") ∧
      ¬ (RestClient.resolveRedirect exampleConfig.toClientConfig
            (ascii "/login?return=https://other.com/") =
          .ok (ascii "/login?return=https://other.com/") ∧
        RestClientAsync.resolveRedirect exampleConfig
            (ascii "/login?return=https://other.com/") =
          .ok (ascii "/login?return=https://other.com/")) := by
  decide +kernel

/-- Both clients report a redirect to another host. -/
structure ReportsOtherHost (config : RestClientAsync.Config) (location : Bytes) : Prop where
  exception : ∃ what, RestClient.resolveRedirect config.toClientConfig location = .error what
  error : RestClientAsync.resolveRedirect config location = .error .crossHostRedirect

theorem reportsOtherHost_iff (config : RestClientAsync.Config) (location : Bytes) :
    ReportsOtherHost config location ↔
      ∃ rest, afterFirst (ascii "://") location = some rest ∧
        toLower (takenForHost rest) ≠ toLower config.host := by
  have reported : ReportsOtherHost config location ↔
      ∃ what, extractRedirectPath location config.host = .error what := by
    constructor
    · exact fun reports => reports.exception
    · rintro ⟨what, failed⟩
      exact ⟨⟨what, failed⟩, by rw [RestClientAsync.resolveRedirect, failed]⟩
  rw [reported]
  cases found : afterFirst (ascii "://") location with
  | none =>
      rw [extractRedirectPath_of_absent config.host found]
      split_ifs <;> simp
  | some rest =>
      rw [extractRedirectPath_of_afterFirst config.host found]
      split_ifs with foreign bare
      · simp [foreign]
      · simpa using foreign
      · simpa using foreign

theorem takenForHost_eq (rest : Bytes) :
    takenForHost rest =
      rest.takeWhile fun byte => byte ≠ ':'.toUInt8 ∧ byte ≠ '/'.toUInt8 := by
  rw [takenForHost, List.takeWhile_takeWhile]
  simp

theorem takenForHost_append {before : Bytes} (slash : '/'.toUInt8 ∉ before)
    (colon : ':'.toUInt8 ∉ before) (after : Bytes) :
    takenForHost (before ++ after) = before ++ takenForHost after := by
  rw [takenForHost_eq, takenForHost_eq]
  apply List.takeWhile_append_of_pos
  intro byte member
  have notColon : byte ≠ ':'.toUInt8 := fun equal => colon (equal ▸ member)
  have notSlash : byte ≠ '/'.toUInt8 := fun equal => slash (equal ▸ member)
  simp [notColon, notSlash]

@[simp]
theorem takenForHost_colon (after : Bytes) : takenForHost (':'.toUInt8 :: after) = [] :=
  rfl

/-- A delimiter is in a text when it is in another that differs in case
only. -/
theorem mem_of_mem_toLower {mark : UInt8} (isMark : mark ∈ ascii "@[?#") {text other : Bytes}
    (same : toLower text = toLower other) (member : mark ∈ text) : mark ∈ other := by
  have kept : ∀ mark ∈ ascii "@[?#", toLower [mark] = [mark] := by
    decide +kernel
  have only : ∀ mark ∈ ascii "@[?#", ∀ code : Fin 256,
      toLower [UInt8.ofNat code.val] = [mark] → UInt8.ofNat code.val = mark := by
    decide +kernel
  have lowered : mark ∈ toLower text :=
    List.mem_map.mpr ⟨mark, member, List.singleton_inj.mp (kept mark isMark)⟩
  rw [same] at lowered
  obtain ⟨byte, inside, equal⟩ := List.mem_map.mp lowered
  have exactly := only mark isMark ⟨byte.toNat, byte.toNat_lt⟩
  rw [UInt8.ofNat_toNat] at exactly
  rwa [← exactly (congrArg (fun byte => [byte]) equal)]

/-- The references to another host that are let through: without a scheme,
those that contain no `://`, and those whose first `://` comes later and is
followed by the configured host; with a scheme, those whose user information
is a password of a user named like the configured host, and, for a configured
host with a delimiter in it, those that begin with it. -/
inductive Overlooked (configured : Bytes) (reference : Reference) : Prop
  | path (networkPath : reference.scheme = none)
      (absent : ¬ ascii "://" <:+: reference.text)
  | laterUrl (networkPath : reference.scheme = none) (rest : Bytes)
      (found : afterFirst (ascii "://") reference.text = some rest)
      (same : toLower (takenForHost rest) = toLower configured)
  | password (absolute : reference.scheme.isSome = true) (user password : Bytes)
      (userinfo : reference.userinfo = some (user ++ ':'.toUInt8 :: password))
      (first : ':'.toUInt8 ∉ user) (same : toLower user = toLower configured)
  | delimiter (absolute : reference.scheme.isSome = true)
      (noPassword : ∀ text ∈ reference.userinfo, ':'.toUInt8 ∉ text)
      (marked : ∃ mark ∈ configured, mark ∈ ascii "@[?#")
      (same : toLower (takenForHost (reference.authority ++ reference.rest)) =
        toLower configured)

section Cuts

variable {reference : Reference}

theorem slash_not_mem_userinfo {text : Bytes} (userinfo : reference.userinfo = some text) :
    '/'.toUInt8 ∉ text := by
  intro member
  have colon := reference.userinfo_valid text userinfo _ member (by decide)
  revert colon
  decide

theorem takenForHost_of_password {user password : Bytes}
    (userinfo : reference.userinfo = some (user ++ ':'.toUInt8 :: password))
    (first : ':'.toUInt8 ∉ user) :
    takenForHost (reference.authority ++ reference.rest) = user := by
  have slash := slash_not_mem_userinfo userinfo
  rw [List.mem_append, not_or] at slash
  simp only [Reference.authority, Reference.userinfoText, userinfo, List.append_assoc,
    List.cons_append]
  rw [takenForHost_append slash.1 first, takenForHost_colon, List.append_nil]

/-- After a host without colons comes its port, which is cut off, or the rest
of the reference. -/
theorem mark_mem_of_ne_host {host port rest : Bytes} (slash : '/'.toUInt8 ∉ host)
    (colon : ':'.toUInt8 ∉ host) (portShape : port = [] ∨ port.head? = some ':'.toUInt8)
    (restShape : ∀ first ∈ rest.head?, first ∈ ascii "/?#")
    (notHost : takenForHost (host ++ (port ++ rest)) ≠ host) :
    ∃ mark ∈ takenForHost (host ++ (port ++ rest)), mark ∈ ascii "@[?#" := by
  rw [takenForHost_append slash colon] at notHost ⊢
  have more : takenForHost (port ++ rest) ≠ [] := fun nothing =>
    notHost (by rw [nothing, List.append_nil])
  rcases portShape with rfl | portHead
  · rw [List.nil_append] at more ⊢
    cases rest with
    | nil => exact absurd rfl more
    | cons first rest =>
        have shapes : first = '/'.toUInt8 ∨ first = '?'.toUInt8 ∨ first = '#'.toUInt8 := by
          simpa [ascii] using restShape first rfl
        rcases shapes with rfl | rfl | rfl
        · exact absurd rfl more
        · exact ⟨'?'.toUInt8, List.mem_append_right _ List.mem_cons_self, by decide⟩
        · exact ⟨'#'.toUInt8, List.mem_append_right _ List.mem_cons_self, by decide⟩
  · cases port with
    | nil => cases portHead
    | cons first port =>
        rw [List.head?_cons, Option.some.injEq] at portHead
        rw [portHead, List.cons_append, takenForHost_colon] at more
        exact absurd rfl more

/-- A reference without a password whose cut text is not its host is cut at a
delimiter that is not a colon. -/
theorem mark_mem_takenForHost (noPassword : ∀ text ∈ reference.userinfo, ':'.toUInt8 ∉ text)
    (notHost : takenForHost (reference.authority ++ reference.rest) ≠ reference.host) :
    ∃ mark ∈ takenForHost (reference.authority ++ reference.rest), mark ∈ ascii "@[?#" := by
  cases userinfo : reference.userinfo with
  | some text =>
      have cut : reference.authority ++ reference.rest =
          (text ++ ascii "@") ++ (reference.host ++ (reference.portText ++ reference.rest)) := by
        simp only [Reference.authority, Reference.userinfoText, userinfo, List.append_assoc]
      have slash : '/'.toUInt8 ∉ text ++ ascii "@" := by
        rw [List.mem_append, not_or]
        exact ⟨slash_not_mem_userinfo userinfo, by decide⟩
      have colon : ':'.toUInt8 ∉ text ++ ascii "@" := by
        rw [List.mem_append, not_or]
        exact ⟨noPassword text userinfo, by decide⟩
      rw [cut, takenForHost_append slash colon]
      exact ⟨'@'.toUInt8, by simp [ascii], by decide⟩
  | none =>
      have cut : reference.authority ++ reference.rest =
          reference.host ++ (reference.portText ++ reference.rest) := by
        simp only [Reference.authority, Reference.userinfoText, userinfo, List.append_assoc,
          List.nil_append]
      rcases reference.host_valid with plain | ⟨address, bracketed, -⟩
      · have portShape : reference.portText = [] ∨
            reference.portText.head? = some ':'.toUInt8 := by
          cases port : reference.port with
          | none => exact .inl (by rw [Reference.portText, port])
          | some text => exact .inr (by rw [Reference.portText, port]; rfl)
        rw [cut] at notHost ⊢
        refine mark_mem_of_ne_host ?_ ?_ portShape reference.rest_valid notHost
        · exact fun member => absurd (plain _ member) (by decide)
        · exact fun member => absurd (plain _ member) (by decide)
      · have opened : reference.authority ++ reference.rest = ascii "[" ++
            (address ++ ascii "]" ++ (reference.portText ++ reference.rest)) := by
          rw [cut, bracketed, List.append_assoc, List.append_assoc, List.append_assoc]
        rw [opened, takenForHost_append (by decide) (by decide)]
        exact ⟨'['.toUInt8, by simp [ascii], by decide⟩

end Cuts

theorem reported_iff_of_networkPath {config : RestClientAsync.Config} {reference : Reference}
    (networkPath : reference.scheme = none) :
    ReportsOtherHost config reference.text ↔ ¬ Overlooked config.host reference := by
  have notAbsolute : reference.scheme.isSome ≠ true := by simp [networkPath]
  rw [reportsOtherHost_iff]
  constructor
  · rintro ⟨rest, found, foreign⟩ overlooked
    cases overlooked with
    | path _ absent =>
        rw [afterFirst_eq_none_iff.mpr absent] at found
        cases found
    | laterUrl _ later laterFound same =>
        rw [found, Option.some.injEq] at laterFound
        exact foreign (laterFound ▸ same)
    | password absolute => exact notAbsolute absolute
    | delimiter absolute => exact notAbsolute absolute
  · intro notOverlooked
    cases found : afterFirst (ascii "://") reference.text with
    | none => exact absurd (.path networkPath (afterFirst_eq_none_iff.mp found)) notOverlooked
    | some rest =>
        exact ⟨rest, rfl, fun same => notOverlooked (.laterUrl networkPath rest found same)⟩

theorem reported_iff_of_absolute {config : RestClientAsync.Config} {reference : Reference}
    {name : Bytes} (scheme : reference.scheme = some name)
    (other : toLower reference.host ≠ toLower config.host) :
    ReportsOtherHost config reference.text ↔ ¬ Overlooked config.host reference := by
  have absolute : reference.scheme.isSome = true := by simp [scheme]
  have notNetworkPath : reference.scheme ≠ none := by simp [scheme]
  rw [reportsOtherHost_iff, Reference.afterFirst_text_of_scheme scheme]
  simp only [Option.some.injEq, exists_eq_left']
  constructor
  · intro foreign overlooked
    cases overlooked with
    | path networkPath => exact notNetworkPath networkPath
    | laterUrl networkPath => exact notNetworkPath networkPath
    | password _ user password userinfo first same =>
        rw [takenForHost_of_password userinfo first] at foreign
        exact foreign same
    | delimiter _ _ _ same => exact foreign same
  · intro notOverlooked same
    by_cases noPassword : ∀ text ∈ reference.userinfo, ':'.toUInt8 ∉ text
    · have notHost : takenForHost (reference.authority ++ reference.rest) ≠ reference.host :=
        fun equal => other (equal ▸ same)
      obtain ⟨mark, member, isMark⟩ := mark_mem_takenForHost noPassword notHost
      exact notOverlooked (.delimiter absolute noPassword
        ⟨mark, mem_of_mem_toLower isMark same member, isMark⟩ same)
    · simp only [not_forall, not_not] at noPassword
      obtain ⟨text, userinfo, colon⟩ := noPassword
      obtain ⟨user, password, rfl, first⟩ := List.eq_append_cons_of_mem colon
      rw [takenForHost_of_password userinfo first] at same
      exact notOverlooked (.password absolute user password userinfo first same)

/-- A reference to another host is reported unless it is overlooked. -/
theorem otherHost_reported_iff (config : RestClientAsync.Config) (reference : Reference)
    (other : toLower reference.host ≠ toLower config.host) :
    ReportsOtherHost config reference.text ↔ ¬ Overlooked config.host reference := by
  cases scheme : reference.scheme with
  | none => exact reported_iff_of_networkPath scheme
  | some name => exact reported_iff_of_absolute scheme other

/-- `//evil.com/x`. -/
def networkPathReference : Reference where
  scheme := none
  userinfo := none
  host := ascii "evil.com"
  port := none
  rest := ascii "/x"
  scheme_valid := nofun
  userinfo_valid := nofun
  host_valid := .inl (by decide +kernel)
  port_valid := nofun
  rest_valid := by decide +kernel

/-- `https://evil.com/x`. -/
def foreignReference : Reference :=
  { networkPathReference with
    scheme := some (ascii "https")
    scheme_valid := by
      rintro _ ⟨⟩
      exact ⟨⟨'h'.toUInt8, rfl, by decide +kernel⟩, by decide +kernel⟩ }

/-- `https://example.com:pw@evil.com/x`. -/
def passwordReference : Reference :=
  { foreignReference with
    userinfo := some (ascii "example.com:pw")
    userinfo_valid := by
      rintro _ ⟨⟩
      decide +kernel }

theorem foreignReference_reported : ReportsOtherHost exampleConfig foreignReference.text := by
  refine (otherHost_reported_iff exampleConfig foreignReference (by decide)).mpr ?_
  intro overlooked
  cases overlooked with
  | path networkPath => cases networkPath
  | laterUrl networkPath => cases networkPath
  | password _ _ _ userinfo => cases userinfo
  | delimiter _ _ marked =>
      revert marked
      decide +kernel

/-- Without a scheme, or behind a password of a user named like the configured
host, another host is let through. -/
theorem otherHost_overlooked :
    RestClientAsync.resolveRedirect exampleConfig networkPathReference.text =
        .ok (ascii "//evil.com/x") ∧
      RestClientAsync.resolveRedirect exampleConfig passwordReference.text =
        .ok (ascii "/x") ∧
      ¬ (toLower networkPathReference.host ≠ toLower exampleConfig.host →
        ReportsOtherHost exampleConfig networkPathReference.text) := by
  have let_through : RestClientAsync.resolveRedirect exampleConfig networkPathReference.text =
      .ok (ascii "//evil.com/x") := by
    decide +kernel
  refine ⟨let_through, by decide +kernel, fun reported => ?_⟩
  have error := (reported (by decide)).error
  rw [let_through] at error
  cases error

end ExchangeConnectivity
