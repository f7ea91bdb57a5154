import BrowserVpn.Server.Strings

/-!
# Server.Target — the authority of a request

`splitTarget` with the functions of `net` and `strconv` that it calls. Whatever
it returns, the port is one of five and the text of the host is a part of the
authority that begins neither a path nor a user.
-/

namespace BrowserVpn

open Data

/-! ## Library -/

/-- `[` and `]`. -/
def openBracket : UInt8 := 91
def closeBracket : UInt8 := 93

/-- `net.SplitHostPort`, `none` for its errors. The port stands after the last
colon; a host in brackets ends right before it. -/
def splitHostPort (hostport : GoString) : Option (GoString × GoString) :=
  match splitFirst colon hostport.reverse with
  | none => none
  | some (portReversed, frontReversed) =>
      let front := frontReversed.reverse
      let port := portReversed.reverse
      if hostport.head? = some openBracket then
        match splitFirst closeBracket hostport with
        | none => none
        | some (before, after) =>
            if front = before ++ [closeBracket] && !hostport.tail.contains openBracket &&
                !after.contains closeBracket then some (before.tail, port)
            else none
      else if front.contains colon || hostport.contains openBracket ||
          hostport.contains closeBracket then none
      else some (front, port)

/-- `net.JoinHostPort`. -/
def joinHostPort (host port : GoString) : GoString :=
  if host.contains colon then openBracket :: host ++ closeBracket :: colon :: port
  else host ++ colon :: port

def isDecimal (b : UInt8) : Bool := 48 ≤ b.toNat && b.toNat ≤ 57

/-- The value of a text of digits. -/
def digitsValue (s : GoString) : Nat := s.foldl (fun n b => n * 10 + (b.toNat - 48)) 0

/-- `strconv.Atoi`, `none` for its errors. A sign may come first; the value fits
into 64 bits. -/
def atoi (s : GoString) : Option Int :=
  let digits := if s.head? = some 43 || s.head? = some 45 then s.tail else s
  if digits.isEmpty || !digits.all isDecimal then none
  else
    let n : Int := if s.head? = some 45 then -digitsValue digits else digitsValue digits
    if n < -2 ^ 63 || 2 ^ 63 ≤ n then none else some n

/-! ## splitTarget -/

def allowedPorts : List Int := [80, 443, 8080, 8443, 9443]

/-- What no authority may contain. -/
def forbiddenBytes : GoString := go "@/#?\\\r\n\t "

/-- The branches of `splitTarget` that find host and port. -/
def splitAuthority (authority defaultPort : GoString) : Except GoString (GoString × GoString) :=
  if authority.head? = some openBracket && authority.getLast? = some closeBracket &&
      defaultPort ≠ [] then
    .ok (trimSuffix (trimByte authority openBracket) [closeBracket], defaultPort)
  else if authority.head? = some openBracket || authority.contains colon then
    match splitHostPort authority with
    | none => .error (go "invalid target address")
    | some (host, port) => .ok (host, port)
  else .ok (authority, defaultPort)

/-- The checks of `splitTarget` on host and port. -/
def checkTarget (host port : GoString) : Except GoString (GoString × GoString) :=
  if host.isEmpty || host = go "." || host.contains 37 then .error (go "invalid target host")
  else match atoi port with
    | none => .error (go "invalid target port")
    | some n =>
        if n < 1 || n > 65535 then .error (go "invalid target port")
        else if !allowedPorts.contains n then .error (go "destination port is blocked")
        else .ok (host, port)

def splitTarget (authority defaultPort : GoString) : Except GoString (GoString × GoString) :=
  if authority.isEmpty || containsAny authority forbiddenBytes then .error (go "invalid target")
  else match splitAuthority authority defaultPort with
    | .error message => .error message
    | .ok (host, port) => checkTarget host port

theorem checkTarget_ok {host port host' port' : GoString}
    (h : checkTarget host port = .ok (host', port')) :
    host' = host ∧ port' = port ∧ host ≠ [] ∧ host ≠ go "." ∧ 37 ∉ host ∧
      ∃ n, atoi port = some n ∧ n ∈ allowedPorts := by
  rw [checkTarget] at h
  split at h
  · cases h
  rename_i hhost
  split at h
  · cases h
  rename_i n hport
  split at h
  · cases h
  split at h
  · cases h
  rename_i hallowed
  obtain ⟨rfl, rfl⟩ := Prod.mk.inj (Except.ok.inj h)
  simp only [Bool.or_eq_true, not_or, List.isEmpty_iff, decide_eq_true_eq,
    List.contains_iff_mem] at hhost
  simp only [Bool.not_eq_true', Bool.not_eq_false, List.contains_iff_mem] at hallowed
  exact ⟨rfl, rfl, hhost.1.1, hhost.1.2, hhost.2, n, hport, hallowed⟩

/-- The port of a target denotes an allowed one. -/
theorem splitTarget_port {authority defaultPort host port : GoString}
    (h : splitTarget authority defaultPort = .ok (host, port)) :
    ∃ n, atoi port = some n ∧ n ∈ allowedPorts := by
  rw [splitTarget] at h
  split at h
  · cases h
  split at h
  · cases h
  · obtain ⟨-, rfl, -, -, -, hport⟩ := checkTarget_ok h
    exact hport

/-! ## Joining and splitting -/

/-- What `splitHostPort` returns stands before and after the last colon, the host
maybe in brackets. -/
theorem splitHostPort_eq_some {hostport host port : GoString}
    (h : splitHostPort hostport = some (host, port)) :
    hostport = host ++ colon :: port ∨
      hostport = (openBracket :: host ++ [closeBracket]) ++ colon :: port := by
  rw [splitHostPort] at h
  split at h
  · cases h
  rename_i portReversed frontReversed hsplit
  have hall : hostport = frontReversed.reverse ++ colon :: portReversed.reverse := by
    rw [← List.reverse_reverse hostport, (splitFirst_eq_some.1 hsplit).1]
    simp
  simp only at h
  split at h
  · -- in brackets
    rename_i hopen
    split at h
    · cases h
    rename_i before after hclose
    split at h
    · rename_i hfront
      obtain ⟨rfl, rfl⟩ := Prod.mk.inj (Option.some.inj h)
      simp only [Bool.and_eq_true, decide_eq_true_eq] at hfront
      have hbefore := (splitFirst_eq_some.1 hclose).1
      cases before with
      | nil =>
          rw [hbefore] at hopen
          cases hopen
      | cons b before =>
          rw [hbefore] at hopen
          obtain rfl : b = openBracket := Option.some.inj hopen
          refine Or.inr ?_
          rw [hall, hfront.1.1]
          rfl
    · cases h
  · -- without
    split at h
    · cases h
    obtain ⟨rfl, rfl⟩ := Prod.mk.inj (Option.some.inj h)
    exact Or.inl hall

/-- `splitHostPort` undoes `joinHostPort` on a host without brackets and a port
without colons. -/
theorem splitHostPort_joinHostPort {host port : GoString} (hopen : openBracket ∉ host)
    (hclose : closeBracket ∉ host)
    (hport : ∀ b ∈ port, b ≠ colon ∧ b ≠ openBracket ∧ b ≠ closeBracket) :
    splitHostPort (joinHostPort host port) = some (host, port) := by
  have hcolon : colon ∉ port.reverse := fun hb => (hport _ (List.mem_reverse.1 hb)).1 rfl
  have hopen' : openBracket ∉ port := fun hb => (hport _ hb).2.1 rfl
  have hclose' : closeBracket ∉ port := fun hb => (hport _ hb).2.2 rfl
  rw [joinHostPort]
  split
  · have hlast : splitFirst colon (openBracket :: host ++ closeBracket :: colon :: port).reverse =
        some (port.reverse, (openBracket :: host ++ [closeBracket]).reverse) := by
      refine splitFirst_eq_some.2 ⟨?_, hcolon⟩
      simp
    have hfirst : splitFirst closeBracket (openBracket :: host ++ closeBracket :: colon :: port) =
        some (openBracket :: host, colon :: port) := by
      refine splitFirst_eq_some.2 ⟨rfl, ?_⟩
      rw [List.mem_cons, not_or]
      exact ⟨by decide, hclose⟩
    have hrest : openBracket ∉ host ++ closeBracket :: colon :: port := by
      simp only [List.mem_append, List.mem_cons, not_or]
      exact ⟨hopen, by decide, by decide, hopen'⟩
    have hafter : closeBracket ∉ colon :: port := by
      rw [List.mem_cons, not_or]
      exact ⟨by decide, hclose'⟩
    simp only [splitHostPort, hlast, hfirst]
    simp [hrest, hafter]
  · rename_i hhost
    have hlast : splitFirst colon (host ++ colon :: port).reverse =
        some (port.reverse, host.reverse) := by
      refine splitFirst_eq_some.2 ⟨?_, hcolon⟩
      simp
    have hhead : (host ++ colon :: port).head? ≠ some openBracket := by
      cases host with
      | nil =>
          intro hb
          exact absurd (Option.some.inj hb) (by decide)
      | cons b host =>
          intro hb
          exact hopen (by simp [Option.some.inj hb])
    have hwhole : ∀ b ∈ [openBracket, closeBracket], b ∉ host ++ colon :: port := by
      intro b hb
      simp only [List.mem_cons, List.not_mem_nil, or_false] at hb
      simp only [List.mem_append, List.mem_cons, not_or]
      rcases hb with rfl | rfl
      · exact ⟨hopen, by decide, hopen'⟩
      · exact ⟨hclose, by decide, hclose'⟩
    have hopenWhole := hwhole openBracket (by simp)
    have hcloseWhole := hwhole closeBracket (by simp)
    simp only [splitHostPort, hlast, if_neg hhead]
    simp_all

/-- A host that `splitTarget` may return. -/
structure IsTargetHost (host : GoString) : Prop where
  ne_nil : host ≠ []
  ne_dot : host ≠ go "."
  percent_notMem : 37 ∉ host
  clean : ∀ b ∈ host, b ∉ forbiddenBytes

/-- The text of an allowed port. -/
def IsTargetPort (port : GoString) : Prop := ∃ n, atoi port = some n ∧ n ∈ allowedPorts

/-- A host in brackets. -/
def bracketed (host : GoString) : GoString := openBracket :: host ++ [closeBracket]

/-- A host that stands alone, in brackets when it contains a colon. -/
def aloneHost (host : GoString) : GoString := if host.contains colon then bracketed host else host

theorem isDecimal_of_atoi {port : GoString} {n : Int} (h : atoi port = some n) :
    port ≠ [] ∧ ∀ b ∈ port, b = 43 ∨ b = 45 ∨ isDecimal b = true := by
  have hdigits : ∀ digits : GoString,
      digits = (if port.head? = some 43 || port.head? = some 45 then port.tail else port) →
        digits ≠ [] ∧ ∀ b ∈ digits, isDecimal b = true := by
    intro digits hd
    by_contra hbad
    have hrefused : (digits.isEmpty || !digits.all isDecimal) = true := by
      by_cases hempty : digits = []
      · simp [hempty]
      · simpa [hempty] using hbad
    simp only [atoi, ← hd, if_pos hrefused] at h
    cases h
  cases port with
  | nil => exact absurd rfl (hdigits [] rfl).1
  | cons b port =>
      refine ⟨List.cons_ne_nil b port, ?_⟩
      by_cases hsign : b = 43 ∨ b = 45
      · have htail := (hdigits port (by simp [hsign])).2
        intro c hc
        rcases List.mem_cons.1 hc with rfl | hc
        · rcases hsign with h | h
          · exact Or.inl h
          · exact Or.inr (Or.inl h)
        · exact Or.inr (Or.inr (htail c hc))
      · have hwhole := (hdigits (b :: port) (by simp [hsign])).2
        exact fun c hc => Or.inr (Or.inr (hwhole c hc))

/-- The text of a number has no byte that an authority gives a meaning to. -/
theorem clean_of_atoi {port : GoString} {n : Int} (h : atoi port = some n) :
    ∀ b ∈ port, b ∉ forbiddenBytes ∧ b ≠ colon ∧ b ≠ openBracket ∧ b ≠ closeBracket := by
  intro b hb
  have hforbidden : ∀ c ∈ forbiddenBytes ++ [colon, openBracket, closeBracket],
      c ≠ 43 ∧ c ≠ 45 ∧ isDecimal c = false := by decide +kernel
  have hnot : b ∉ forbiddenBytes ++ [colon, openBracket, closeBracket] := by
    intro hmem
    obtain ⟨hplus, hminus, hdecimal⟩ := hforbidden b hmem
    rcases (isDecimal_of_atoi h).2 b hb with h | h | h
    · exact hplus h
    · exact hminus h
    · rw [hdecimal] at h
      cases h
  simpa using hnot

/-- The checks pass a host and a port that may be returned. -/
theorem checkTarget_of {host port : GoString} (hhost : IsTargetHost host) (hport : IsTargetPort port) :
    checkTarget host port = .ok (host, port) := by
  obtain ⟨n, hn, hallowed⟩ := hport
  have hrange : ∀ m ∈ allowedPorts, 1 ≤ m ∧ m ≤ 65535 := by decide
  obtain ⟨hlow, hhigh⟩ := hrange n hallowed
  have hok : (host.isEmpty || host = go "." || host.contains 37) = false := by
    simp [hhost.ne_nil, hhost.ne_dot, hhost.percent_notMem]
  have hvalue : (n < 1 || n > 65535) = false := by
    simp only [Bool.or_eq_false_iff, decide_eq_false_iff_not]
    omega
  simp only [checkTarget, hok, hn, hvalue]
  simp [hallowed]

/-- The parsers see an authority that has bytes, none of them forbidden. -/
theorem splitTarget_of_clean {authority defaultPort host port : GoString} (hne : authority ≠ [])
    (hclean : ∀ b ∈ authority, b ∉ forbiddenBytes)
    (h : splitAuthority authority defaultPort = .ok (host, port)) :
    splitTarget authority defaultPort = checkTarget host port := by
  have hok : (authority.isEmpty || containsAny authority forbiddenBytes) = false := by
    simp [hne, containsAny_eq_false.2 hclean]
  rw [splitTarget, hok, h]
  rfl

/-- What a host and a port are joined to is split into them, whatever the default. -/
theorem splitAuthority_joinHostPort {host port : GoString} (defaultPort : GoString)
    (hopen : openBracket ∉ host) (hclose : closeBracket ∉ host) (hport : IsTargetPort port) :
    splitAuthority (joinHostPort host port) defaultPort = .ok (host, port) := by
  obtain ⟨n, hn, -⟩ := hport
  have hbytes := clean_of_atoi hn
  have hsplit := splitHostPort_joinHostPort hopen hclose fun b hb => (hbytes b hb).2
  -- the text of the port comes last, so that this is no bracket that stands alone
  have hlast : (joinHostPort host port).getLast? ≠ some closeBracket := by
    intro hlast
    obtain ⟨front, b, rfl⟩ := (List.eq_nil_or_concat' port).resolve_left (isDecimal_of_atoi hn).1
    have hend : ∀ t : GoString, (t ++ (front ++ [b])).getLast? = some b := fun t => by simp
    have hjoin : ∃ t, joinHostPort host (front ++ [b]) = t ++ (front ++ [b]) := by
      rw [joinHostPort]
      split
      · exact ⟨openBracket :: host ++ [closeBracket, colon], by simp⟩
      · exact ⟨host ++ [colon], by simp⟩
    obtain ⟨t, ht⟩ := hjoin
    rw [ht, hend t] at hlast
    exact (hbytes b (by simp)).2.2.2 (Option.some.inj hlast)
  have hcolon : colon ∈ joinHostPort host port := by
    rw [joinHostPort]
    split <;> simp
  rw [splitAuthority, if_neg (by simp [hlast]), if_pos (by simp [hcolon]), hsplit]

/-- A host that stands alone is given the default. -/
theorem splitAuthority_aloneHost {host defaultPort : GoString} (hopen : openBracket ∉ host)
    (hdefault : defaultPort ≠ []) :
    splitAuthority (aloneHost host) defaultPort = .ok (host, defaultPort) := by
  rw [aloneHost]
  split
  · have hhead : (bracketed host).head? = some openBracket := rfl
    have hlast : (bracketed host).getLast? = some closeBracket := List.getLast?_append
    have htrim : trimSuffix (trimByte (bracketed host) openBracket) [closeBracket] = host := by
      rw [trimByte, if_pos hhead]
      exact trimSuffix_append host [closeBracket]
    rw [splitAuthority, if_pos (by simp [hhead, hlast, hdefault]), htrim]
  · rename_i hcolon
    have hhead : host.head? ≠ some openBracket := by
      intro hhead
      exact hopen (List.mem_of_mem_head? hhead)
    rw [splitAuthority, if_neg (by simp [hhead]), if_neg (by simpa [hhead] using hcolon)]

/-- Whatever branch is taken, the authority is the host, maybe in brackets, alone or
with the port. -/
theorem splitAuthority_eq_ok {authority defaultPort host port : GoString}
    (h : splitAuthority authority defaultPort = .ok (host, port)) :
    ∃ text ∈ [host, bracketed host],
      authority = text ∧ port = defaultPort ∨ authority = text ++ colon :: port := by
  rw [splitAuthority] at h
  split at h
  · -- brackets at both ends
    rename_i hends
    obtain ⟨rfl, rfl⟩ := Prod.mk.inj (Except.ok.inj h)
    simp only [Bool.and_eq_true, decide_eq_true_eq] at hends
    obtain ⟨⟨hhead, hlast⟩, -⟩ := hends
    refine ⟨_, List.mem_cons_of_mem _ (List.mem_singleton_self _), Or.inl ⟨?_, rfl⟩⟩
    cases authority with
    | nil => cases hhead
    | cons b rest =>
        obtain rfl : b = openBracket := Option.some.inj hhead
        rcases List.eq_nil_or_concat' rest with rfl | ⟨front, c, rfl⟩
        · exact absurd (Option.some.inj hlast) (by decide)
        · have hconcat : (openBracket :: front ++ [c]).getLast? = some c := List.getLast?_concat
          obtain rfl : c = closeBracket := Option.some.inj (hconcat.symm.trans hlast)
          rw [trimByte, if_pos hhead, List.tail_cons, trimSuffix_append]
          rfl
  · split at h
    · split at h
      · cases h
      rename_i hsplit
      obtain ⟨rfl, rfl⟩ := Prod.mk.inj (Except.ok.inj h)
      rcases splitHostPort_eq_some hsplit with heq | heq
      · exact ⟨_, List.mem_cons_self, Or.inr heq⟩
      · exact ⟨_, List.mem_cons_of_mem _ (List.mem_singleton_self _), Or.inr heq⟩
    · -- the whole authority
      obtain ⟨rfl, rfl⟩ := Prod.mk.inj (Except.ok.inj h)
      exact ⟨_, List.mem_cons_self, Or.inl ⟨rfl, rfl⟩⟩

/-- `splitTarget` undoes joining, and returns nothing that was not joined. -/
theorem splitTarget_inverts_join :
    (∀ host port defaultPort, IsTargetHost host → openBracket ∉ host → closeBracket ∉ host →
      IsTargetPort port → splitTarget (joinHostPort host port) defaultPort = .ok (host, port)) ∧
    (∀ host defaultPort, IsTargetHost host → openBracket ∉ host → closeBracket ∉ host →
      IsTargetPort defaultPort →
        splitTarget (aloneHost host) defaultPort = .ok (host, defaultPort)) ∧
    ∀ authority defaultPort host port, splitTarget authority defaultPort = .ok (host, port) →
      IsTargetHost host ∧ IsTargetPort port ∧ ∃ text ∈ [host, bracketed host],
        authority = text ∧ port = defaultPort ∨ authority = text ++ colon :: port := by
  have hsigns : ∀ b ∈ [openBracket, closeBracket, colon], b ∉ forbiddenBytes :=
    List.forall_mem_cons.2 ⟨by decide, List.forall_mem_cons.2 ⟨by decide, by simp; decide⟩⟩
  refine ⟨fun host port defaultPort hhost hopen hclose hport => ?_,
    fun host defaultPort hhost hopen hclose hport => ?_,
    fun authority defaultPort host port h => ?_⟩
  · have hne : joinHostPort host port ≠ [] := by
      rw [joinHostPort]
      split <;> simp
    have hclean : ∀ b ∈ joinHostPort host port, b ∉ forbiddenBytes := by
      obtain ⟨n, hn, -⟩ := hport
      have hhostport : ∀ b ∈ host ++ port ++ [openBracket, closeBracket, colon],
          b ∉ forbiddenBytes := by
        intro b hb
        rcases List.mem_append.1 hb with hb | hb
        · rcases List.mem_append.1 hb with hb | hb
          · exact hhost.clean b hb
          · exact (clean_of_atoi hn b hb).1
        · exact hsigns b hb
      intro b hb
      refine hhostport b ?_
      rw [joinHostPort] at hb
      split at hb
      · simp only [List.mem_append, List.mem_cons] at hb ⊢
        grind
      · simp only [List.mem_append, List.mem_cons] at hb ⊢
        grind
    rw [splitTarget_of_clean hne hclean (splitAuthority_joinHostPort defaultPort hopen hclose hport)]
    exact checkTarget_of hhost hport
  · have hdefault : defaultPort ≠ [] := by
      obtain ⟨n, hn, -⟩ := hport
      exact (isDecimal_of_atoi hn).1
    have hne : aloneHost host ≠ [] := by
      rw [aloneHost]
      split
      · exact List.cons_ne_nil _ _
      · exact hhost.ne_nil
    have hclean : ∀ b ∈ aloneHost host, b ∉ forbiddenBytes := by
      intro b hb
      rw [aloneHost] at hb
      split at hb
      · rw [bracketed, List.mem_append, List.mem_cons, List.mem_singleton] at hb
        rcases hb with (rfl | hb) | rfl
        · exact hsigns _ (by simp)
        · exact hhost.clean b hb
        · exact hsigns _ (by simp)
      · exact hhost.clean b hb
    rw [splitTarget_of_clean hne hclean (splitAuthority_aloneHost hopen hdefault)]
    exact checkTarget_of hhost hport
  · rw [splitTarget] at h
    split at h
    · cases h
    rename_i hclean
    split at h
    · cases h
    rename_i host' port' hsplit
    obtain ⟨rfl, rfl, hne, hdot, hpercent, hport⟩ := checkTarget_ok h
    obtain ⟨text, htext, hauthority⟩ := splitAuthority_eq_ok hsplit
    refine ⟨⟨hne, hdot, hpercent, ?_⟩, hport, text, htext, hauthority⟩
    -- the host is a part of the authority
    intro b hb
    simp only [Bool.or_eq_true, not_or, Bool.not_eq_true, containsAny_eq_false] at hclean
    refine hclean.2 b ?_
    have hin : b ∈ text := by
      simp only [List.mem_cons, List.not_mem_nil, or_false] at htext
      rcases htext with rfl | rfl
      · exact hb
      · simp [bracketed, hb]
    rcases hauthority with ⟨rfl, -⟩ | rfl
    · exact hin
    · exact List.mem_append_left _ hin

theorem splitTarget_inverts_join_sample :
    splitTarget (joinHostPort (go "::1") (go "443")) (go "80") = .ok (go "::1", go "443") := by
  have hport : IsTargetPort (go "443") := ⟨443, by decide +kernel, by decide⟩
  exact splitTarget_inverts_join.1 (go "::1") (go "443") (go "80")
    ⟨by decide, by decide, by decide, by decide +kernel⟩ (by decide) (by decide) hport

end BrowserVpn
