import BrowserVpn.Server.Strings

/-!
# Server.Headers — the fields that a request takes along

A proxy does not forward the fields that are about its own connection: a fixed
list, and what the values of `Connection` name. `forwardHTTP` puts two of them
back when the client asks for another protocol.
-/

namespace BrowserVpn

/-! ## http.Header -/

/-- `validHeaderFieldByte`. -/
def validHeaderFieldByte (b : UInt8) : Bool :=
  (48 ≤ b && b ≤ 57) || (65 ≤ b && b ≤ 90) || (97 ≤ b && b ≤ 122) ||
    (go "!#$%&'*+-.^_\x60|~").contains b

/-- A letter takes upper case at the beginning and after a hyphen, lower case elsewhere. -/
def capitalize : Bool → GoString → GoString
  | _, [] => []
  | upper, b :: rest =>
      let c := if upper && 97 ≤ b && b ≤ 122 then b - 32
        else if !upper && 65 ≤ b && b ≤ 90 then b + 32 else b
      c :: capitalize (c == 45) rest

/-- `textproto.CanonicalMIMEHeaderKey`. -/
def canonicalKey (name : GoString) : GoString :=
  if name.all validHeaderFieldByte then capitalize true name else name

/-- `http.Header`: the values of each field. -/
def Header := GoString → Option (List GoString)

namespace Header

def values (h : Header) (name : GoString) : List GoString := (h (canonicalKey name)).getD []

/-- `Get`: the first value, or an empty one. -/
def get (h : Header) (name : GoString) : GoString := (h.values name).head?.getD []

def set (h : Header) (name value : GoString) : Header :=
  fun k => if k = canonicalKey name then some [value] else h k

def del (h : Header) (name : GoString) : Header :=
  fun k => if k = canonicalKey name then none else h k

/-- The keys of a header that was received. -/
def Canonical (h : Header) : Prop := ∀ name, (h name).isSome = true → canonicalKey name = name

theorem foldl_del (names : List GoString) (h : Header) (k : GoString) :
    names.foldl del h k = if k ∈ names.map canonicalKey then none else h k := by
  induction names generalizing h with
  | nil => simp
  | cons name names ih =>
      rw [List.foldl_cons, ih, List.map_cons]
      by_cases hrest : k ∈ names.map canonicalKey
      · rw [if_pos hrest, if_pos (List.mem_cons_of_mem _ hrest)]
      · rw [if_neg hrest, del]
        by_cases hk : k = canonicalKey name
        · rw [if_pos hk, if_pos (by rw [hk]; exact List.mem_cons_self)]
        · rw [if_neg hk, if_neg (by simp only [List.mem_cons, not_or]; exact ⟨hk, hrest⟩)]

end Header

/-! ## proxy.go -/

/-- What stands between the commas of a value. -/
def fields (value : GoString) : List GoString := value.splitOn 44

/-- What the values of `Connection` name. -/
def connectionTokens (h : Header) : List GoString :=
  (h.values (go "Connection")).flatMap fun value => (fields value).map trimSpace

def hopNames : List GoString :=
  [go "Connection", go "Proxy-Connection", go "Proxy-Authorization", go "Proxy-Authenticate",
    go "Keep-Alive", go "TE", go "Trailer", go "Transfer-Encoding", go "Upgrade"]

/-- `removeHopHeaders`. The values are read before the first deletion. -/
def removeHopHeaders (h : Header) : Header :=
  hopNames.foldl Header.del ((connectionTokens h).foldl Header.del h)

section

variable [Unicode]

/-- `headerHasToken`. -/
def headerHasToken (h : Header) (name token : GoString) : Bool :=
  (h.values name).any fun value => (fields value).any fun field => equalFold (trimSpace field) token

/-- `wantsUpgrade` of `forwardHTTP`. -/
def wantsUpgrade (h : Header) : Bool :=
  h.get (go "Upgrade") ≠ [] && headerHasToken h (go "Connection") (go "Upgrade")

/-- The header that `forwardHTTP` hands to the transport. -/
def upstreamHeader (h : Header) : Header :=
  let removed := removeHopHeaders h
  if wantsUpgrade h then
    (removed.set (go "Connection") (go "Upgrade")).set (go "Upgrade") (h.get (go "Upgrade"))
  else removed

end

/-! ## What is left -/

/-- The field is about the connection: a name of the list or one that `Connection` has. -/
def IsHop (h : Header) (name : GoString) : Prop :=
  ∃ hop ∈ connectionTokens h ++ hopNames, canonicalKey name = canonicalKey hop

theorem removeHopHeaders_apply (h : Header) (name : GoString) :
    removeHopHeaders h name =
      if name ∈ (connectionTokens h ++ hopNames).map canonicalKey then none else h name := by
  rw [removeHopHeaders, Header.foldl_del, Header.foldl_del, List.map_append]
  by_cases hname : name ∈ hopNames.map canonicalKey
  · rw [if_pos hname, if_pos (List.mem_append_right _ hname)]
  · rw [if_neg hname]
    by_cases htoken : name ∈ (connectionTokens h).map canonicalKey
    · rw [if_pos htoken, if_pos (List.mem_append_left _ htoken)]
    · rw [if_neg htoken, if_neg (by rw [List.mem_append, not_or]; exact ⟨htoken, hname⟩)]

/-- A field survives with its values when it is not about the connection. -/
theorem removeHopHeaders_eq_some {h : Header} (hc : h.Canonical) {name : GoString}
    {values : List GoString} :
    removeHopHeaders h name = some values ↔ h name = some values ∧ ¬ IsHop h name := by
  have hmem : h name = some values →
      (name ∈ (connectionTokens h ++ hopNames).map canonicalKey ↔ IsHop h name) := by
    intro hname
    have hkey : canonicalKey name = name := hc name (by rw [hname]; rfl)
    rw [List.mem_map, IsHop, hkey]
    exact exists_congr fun hop => and_congr_right fun _ => eq_comm
  rw [removeHopHeaders_apply]
  constructor
  · intro hsome
    split at hsome
    · cases hsome
    · rename_i hnot
      exact ⟨hsome, fun hhop => hnot ((hmem hsome).2 hhop)⟩
  · rintro ⟨hname, hnot⟩
    rw [if_neg fun hin => hnot ((hmem hname).1 hin)]
    exact hname

/-- The fields of the list are gone, -/
theorem removeHopHeaders_hop (h : Header) {hop : GoString} (hhop : hop ∈ hopNames) :
    removeHopHeaders h (canonicalKey hop) = none := by
  rw [removeHopHeaders_apply, if_pos]
  exact List.mem_map_of_mem (List.mem_append_right _ hhop)

/-- so that nothing is named any more, -/
theorem connectionTokens_removeHopHeaders (h : Header) :
    connectionTokens (removeHopHeaders h) = [] := by
  rw [connectionTokens, Header.values, removeHopHeaders_hop h List.mem_cons_self]
  rfl

/-- and nothing more is removed. -/
theorem removeHopHeaders_idem (h : Header) :
    removeHopHeaders (removeHopHeaders h) = removeHopHeaders h := by
  funext name
  rw [removeHopHeaders_apply, connectionTokens_removeHopHeaders, List.nil_append]
  split
  · rename_i hname
    obtain ⟨hop, hhop, rfl⟩ := List.mem_map.1 hname
    exact (removeHopHeaders_hop h hhop).symm
  · rfl

/-! ## What is sent -/

theorem canonicalKey_connection : canonicalKey (go "Connection") = go "Connection" := by
  decide +kernel

theorem canonicalKey_upgrade : canonicalKey (go "Upgrade") = go "Upgrade" := by decide +kernel

theorem upgrade_ne_connection : go "Upgrade" ≠ go "Connection" := by decide +kernel

/-- The first value of a field, when it is not empty. -/
theorem Header.get_eq {h : Header} {name value : GoString} (hkey : canonicalKey name = name)
    (hvalue : value ≠ []) :
    h.get name = value ↔ ∃ rest, h name = some (value :: rest) := by
  rw [Header.get, Header.values, hkey]
  cases h name with
  | none => simpa using fun heq : [] = value => hvalue heq.symm
  | some values =>
      cases values with
      | nil => simpa using fun heq : [] = value => hvalue heq.symm
      | cons first rest => simp

section

variable [Unicode]

/-- The client asks for another protocol: its first `Upgrade` names one, and a value
of its `Connection` has the token. -/
def AsksUpgrade (h : Header) (protocol : GoString) : Prop :=
  protocol ≠ [] ∧ (∃ rest, h (go "Upgrade") = some (protocol :: rest)) ∧
    ∃ values value, h (go "Connection") = some values ∧ value ∈ values ∧
      ∃ field ∈ fields value, equalFold (trimSpace field) (go "Upgrade") = true

theorem headerHasToken_iff {h : Header} :
    headerHasToken h (go "Connection") (go "Upgrade") = true ↔
      ∃ values value, h (go "Connection") = some values ∧ value ∈ values ∧
        ∃ field ∈ fields value, equalFold (trimSpace field) (go "Upgrade") = true := by
  rw [headerHasToken, Header.values, canonicalKey_connection]
  cases h (go "Connection") with
  | none => simp
  | some values => simp

theorem asksUpgrade_iff {h : Header} {protocol : GoString} :
    AsksUpgrade h protocol ↔ wantsUpgrade h = true ∧ protocol = h.get (go "Upgrade") := by
  rw [wantsUpgrade, Bool.and_eq_true, headerHasToken_iff, decide_eq_true_eq]
  constructor
  · rintro ⟨hne, hfirst, htoken⟩
    have hget := (Header.get_eq canonicalKey_upgrade hne).2 hfirst
    exact ⟨⟨by rw [hget]; exact hne, htoken⟩, hget.symm⟩
  · rintro ⟨⟨hne, htoken⟩, rfl⟩
    exact ⟨hne, (Header.get_eq canonicalKey_upgrade hne).1 rfl, htoken⟩

/-- What is sent is what survives, with the two fields of a wanted upgrade. -/
theorem upstreamHeader_apply (h : Header) (name : GoString) :
    upstreamHeader h name =
      if wantsUpgrade h = true ∧ name = go "Upgrade" then some [h.get (go "Upgrade")]
      else if wantsUpgrade h = true ∧ name = go "Connection" then some [go "Upgrade"]
      else removeHopHeaders h name := by
  rw [upstreamHeader]
  by_cases hwants : wantsUpgrade h = true
  · simp only [hwants, if_true, true_and, Header.set, canonicalKey_connection, canonicalKey_upgrade]
  · simp [hwants]

theorem upstreamHeader_upgrade (h : Header) (values : List GoString) :
    upstreamHeader h (go "Upgrade") = some values ↔
      ∃ protocol, AsksUpgrade h protocol ∧ values = [protocol] := by
  have hgone := removeHopHeaders_hop h (show go "Upgrade" ∈ hopNames by simp [hopNames])
  rw [canonicalKey_upgrade] at hgone
  simp only [asksUpgrade_iff]
  rw [upstreamHeader_apply, hgone]
  by_cases hwants : wantsUpgrade h = true
  · rw [if_pos ⟨hwants, rfl⟩, Option.some.injEq]
    constructor
    · rintro rfl
      exact ⟨_, ⟨hwants, rfl⟩, rfl⟩
    · rintro ⟨protocol, ⟨-, rfl⟩, rfl⟩
      rfl
  · simp [hwants]

theorem upstreamHeader_connection (h : Header) (values : List GoString) :
    upstreamHeader h (go "Connection") = some values ↔
      (∃ protocol, AsksUpgrade h protocol) ∧ values = [go "Upgrade"] := by
  have hgone := removeHopHeaders_hop h (show go "Connection" ∈ hopNames by simp [hopNames])
  rw [canonicalKey_connection] at hgone
  have hasks : (∃ protocol, AsksUpgrade h protocol) ↔ wantsUpgrade h = true := by
    simp only [asksUpgrade_iff]
    exact ⟨fun ⟨_, hwants, _⟩ => hwants, fun hwants => ⟨_, hwants, rfl⟩⟩
  rw [upstreamHeader_apply, hgone, hasks, if_neg fun heq => upgrade_ne_connection heq.2.symm]
  by_cases hwants : wantsUpgrade h = true
  · rw [if_pos ⟨hwants, rfl⟩, Option.some.injEq]
    exact ⟨fun heq => ⟨hwants, heq.symm⟩, fun heq => heq.2.symm⟩
  · simp [hwants]

/-- Removal takes exactly the fields that are about the connection, once and for all;
a request goes on without them, but for the two of an upgrade. -/
theorem hop_headers_exact (h : Header) (hc : h.Canonical) :
    (∀ name values, removeHopHeaders h name = some values ↔
      h name = some values ∧ (∀ hop ∈ hopNames, canonicalKey name ≠ canonicalKey hop) ∧
        ∀ token ∈ connectionTokens h, canonicalKey name ≠ canonicalKey token) ∧
    removeHopHeaders (removeHopHeaders h) = removeHopHeaders h ∧
    (∀ name values, upstreamHeader h name = some values ↔
      (name ≠ go "Connection" ∧ name ≠ go "Upgrade" ∧ h name = some values ∧ ¬ IsHop h name) ∨
      (name = go "Connection" ∧ (∃ protocol, AsksUpgrade h protocol) ∧ values = [go "Upgrade"]) ∨
      (name = go "Upgrade" ∧ ∃ protocol, AsksUpgrade h protocol ∧ values = [protocol])) := by
  refine ⟨fun name values => ?_, removeHopHeaders_idem h, fun name values => ?_⟩
  · rw [removeHopHeaders_eq_some hc, IsHop]
    refine and_congr_right fun _ => ?_
    simp only [List.mem_append, not_exists, not_and]
    exact ⟨fun hnot => ⟨fun hop hhop => hnot hop (Or.inr hhop),
        fun token htoken => hnot token (Or.inl htoken)⟩,
      fun hnot hop hhop => hhop.elim (hnot.2 hop) (hnot.1 hop)⟩
  · by_cases hconnection : name = go "Connection"
    · subst hconnection
      rw [upstreamHeader_connection]
      simp [upgrade_ne_connection.symm]
    · by_cases hupgrade : name = go "Upgrade"
      · subst hupgrade
        rw [upstreamHeader_upgrade]
        simp [upgrade_ne_connection]
      · rw [upstreamHeader_apply, if_neg fun heq => hupgrade heq.2,
          if_neg fun heq => hconnection heq.2, removeHopHeaders_eq_some hc]
        simp [hconnection, hupgrade]

end

section

attribute [local instance] Unicode.sample

/-- A request for an upgrade that names another field, in lower case. -/
def Header.sample : Header := fun name =>
  if name = go "Connection" then some [go "upgrade, x-trace"]
  else if name = go "Upgrade" then some [go "websocket"]
  else if name = go "X-Trace" then some [go "1"]
  else none

theorem Header.sample_canonical : Header.sample.Canonical := by
  intro name hname
  rw [sample] at hname
  split at hname
  · rename_i heq
    rw [heq]
    decide +kernel
  split at hname
  · rename_i heq
    rw [heq]
    decide +kernel
  split at hname
  · rename_i heq
    rw [heq]
    decide +kernel
  · cases hname

theorem hop_headers_exact_sample : removeHopHeaders Header.sample (go "X-Trace") = none := by
  rw [Option.eq_none_iff_forall_ne_some]
  intro values hvalues
  have hkept := ((hop_headers_exact Header.sample Header.sample_canonical).1 _ _).1 hvalues
  exact hkept.2.2 (go "x-trace") (by decide +kernel) (by decide +kernel)

end

end BrowserVpn
