import BrowserVpn.Core.Pac

/-!
# Core.Routing — what the PAC script answers

The script of `buildPacScript` as Chrome runs it: `readPac` reads the two
variables it declares and `findProxyForURL` is its function. Its matcher compares
a slice, that of `isExcludedHost` a suffix; both mean a suffix of the host at a
label boundary. Whatever is not excluded gets the one directive of the
connection, which has no second.
-/

namespace BrowserVpn

/-! ## Running the script -/

/-- `s.slice(-n)`. -/
def sliceLast (n : Nat) (s : JsString) : JsString := s.drop (s.length - n)

section

variable [Platform]

/-- `host.toLowerCase().replace(/\.$/, '')`. -/
def normalizeHost (host : JsString) : JsString :=
  let lower := toLowerCase host
  if lower.getLast? = some (unit '.') then lower.dropLast else lower

/-- The loop of `FindProxyForURL`, which answers `DIRECT` or falls through. -/
def isDirect (h : JsString) : List JsString → Bool
  | [] => false
  | d :: exclusions =>
      if h == d || sliceLast (d.length + 1) h == js "." ++ d then true else isDirect h exclusions

/-- `FindProxyForURL` with the two variables of its script. -/
def findProxyForURL (proxy : JsString) (exclusions : List JsString) (host : JsString) : JsString :=
  if isDirect (normalizeHost host) exclusions then js "DIRECT" else proxy

end

/-- The function that every script ends with. -/
def pacFunction : JsString :=
  js "function FindProxyForURL(url, host) \x7b\n" ++
  js "  var h = host.toLowerCase().replace(/\\.$/, '');\n" ++
  js "  for (var i = 0; i < SHBVPN_EXCLUSIONS.length; i++) \x7b\n" ++
  js "    var d = SHBVPN_EXCLUSIONS[i];\n" ++
  js "    if (h === d || h.slice(-(d.length + 1)) === '.' + d) return 'DIRECT';\n" ++
  js "  \x7d\n" ++
  js "  return SHBVPN_PROXY;\n" ++
  js "\x7d\n"

/-- Read `text`. -/
def expect (text s : JsString) : Option JsString :=
  if text.isPrefixOf s then some (s.drop text.length) else none

/-- Read a string literal without escapes. -/
def readLiteral (s : JsString) : Option (JsString × JsString) := do
  let rest ← expect (js "\"") s
  let text := rest.takeWhile fun u => u != unit '"' && u != unit '\\'
  let rest ← expect (js "\"") (rest.drop text.length)
  return (text, rest)

/-- Read the literals of an array up to its end, at most `n` of them. -/
def readItems : Nat → JsString → Option (List JsString × JsString)
  | 0, _ => none
  | n + 1, s => do
      let (item, rest) ← readLiteral s
      match expect (js ",") rest with
      | some rest => do
          let (items, rest) ← readItems n rest
          return (item :: items, rest)
      | none => do
          let rest ← expect (js "]") rest
          return ([item], rest)

/-- Read an array of string literals. -/
def readArray (s : JsString) : Option (List JsString × JsString) := do
  let rest ← expect (js "[") s
  match expect (js "]") rest with
  | some rest => return ([], rest)
  | none => readItems rest.length rest

/-- The variables of a script with the function above; any other script is none
of this extension's. -/
def readPac (script : JsString) : Option (JsString × List JsString) := do
  let rest ← expect (js "var SHBVPN_PROXY = ") script
  let (proxy, rest) ← readLiteral rest
  let rest ← expect (js ";\nvar SHBVPN_EXCLUSIONS = ") rest
  let (exclusions, rest) ← readArray rest
  let rest ← expect (js ";\n") rest
  if rest == pacFunction then return (proxy, exclusions) else none

/-- What the script answers for a host. -/
def runPac [Platform] (script host : JsString) : Option JsString :=
  (readPac script).map fun p => findProxyForURL p.1 p.2 host

/-! ## Reading back -/

theorem expect_append (text s : JsString) : expect text (text ++ s) = some s := by
  have hpre : text.isPrefixOf (text ++ s) = true :=
    List.isPrefixOf_iff_prefix.2 (List.prefix_append text s)
  rw [expect, if_pos hpre, List.drop_left]

/-- A literal reads back. -/
theorem readLiteral_jsonString {s : JsString} (h : ∀ u ∈ s, isPlainUnit u = true)
    (rest : JsString) : readLiteral (jsonString s ++ rest) = some (s, rest) := by
  have htake : (s ++ (js "\"" ++ rest)).takeWhile (fun u => u != unit '"' && u != unit '\\') = s := by
    rw [List.takeWhile_append_of_pos]
    · have hstop : (js "\"" ++ rest).takeWhile (fun u => u != unit '"' && u != unit '\\') = [] :=
        List.takeWhile_cons_of_neg (by decide)
      rw [hstop, List.append_nil]
    · intro u hu
      have hplain := h u hu
      simp only [isPlainUnit, Bool.and_eq_true] at hplain
      simp [hplain.1.2, hplain.2]
  rw [jsonString_of_plain h, List.append_assoc, List.append_assoc, readLiteral, expect_append]
  simp only [Option.bind_eq_bind, Option.bind_some, htake, List.drop_left, expect_append]
  rfl

theorem joinWith_cons_cons (separator : UInt16) (p q : JsString) (parts : List JsString) :
    joinWith separator (p :: q :: parts) = p ++ separator :: joinWith separator (q :: parts) := by
  simp [joinWith]

/-- The literals of a joined list read back. -/
theorem readItems_joinWith {items : List JsString} (hne : items ≠ [])
    (h : ∀ d ∈ items, ∀ u ∈ d, isPlainUnit u = true) {n : Nat} (hn : items.length ≤ n)
    (rest : JsString) :
    readItems n (joinWith (unit ',') (items.map jsonString) ++ (js "]" ++ rest)) =
      some (items, rest) := by
  induction items generalizing n with
  | nil => exact absurd rfl hne
  | cons d items ih =>
      obtain ⟨n, rfl⟩ : ∃ m, n = m + 1 := ⟨n - 1, by simp at hn; omega⟩
      have hd := readLiteral_jsonString (h d (by simp))
      cases items with
      | nil =>
          have hcomma : expect (js ",") (js "]" ++ rest) = none := by
            rw [expect, if_neg]
            exact nofun
          simp [joinWith, readItems, hd, hcomma, expect_append]
      | cons e items =>
          have hjoin : joinWith (unit ',') ((d :: e :: items).map jsonString) ++ (js "]" ++ rest) =
              jsonString d ++ (js "," ++
                (joinWith (unit ',') ((e :: items).map jsonString) ++ (js "]" ++ rest))) := by
            have hcomma : js "," = [unit ','] := rfl
            simp [joinWith_cons_cons, hcomma]
          have htail := ih (by simp) (fun e he => h e (by simp [he])) (n := n)
            (by simpa using hn)
          rw [hjoin, readItems, hd]
          simp only [Option.bind_eq_bind, Option.bind_some, expect_append, htail]
          rfl

theorem length_le_joinWith {separator : UInt16} {parts : List JsString}
    (h : ∀ p ∈ parts, p ≠ []) : parts.length ≤ (joinWith separator parts).length := by
  induction parts with
  | nil => exact Nat.le_refl 0
  | cons p parts ih =>
      have hp := List.length_pos_iff.2 (h p (by simp))
      have ih := ih fun q hq => h q (by simp [hq])
      cases parts with
      | nil =>
          rw [joinWith, List.intercalate_singleton, List.length_singleton]
          omega
      | cons q parts =>
          simp only [joinWith_cons_cons, List.length_append, List.length_cons] at ih ⊢
          omega

/-- An array reads back. -/
theorem readArray_jsonStrings {items : List JsString}
    (h : ∀ d ∈ items, ∀ u ∈ d, isPlainUnit u = true) (rest : JsString) :
    readArray (jsonStrings items ++ rest) = some (items, rest) := by
  have hopen : jsonStrings items ++ rest =
      js "[" ++ (joinWith (unit ',') (items.map jsonString) ++ (js "]" ++ rest)) := by
    simp [jsonStrings, js, utf16, unit]
  rw [hopen, readArray, expect_append]
  cases items with
  | nil =>
      have hclose : joinWith (unit ',') (([] : List JsString).map jsonString) ++ (js "]" ++ rest) =
          js "]" ++ rest := rfl
      simp only [hclose, Option.bind_eq_bind, Option.bind_some, expect_append]
      rfl
  | cons d items =>
      -- Its first literal opens with a quote.
      have hquote : ∃ t, joinWith (unit ',') ((d :: items).map jsonString) ++ (js "]" ++ rest) =
          unit '"' :: t := by
        cases items with
        | nil => exact ⟨_, by simp [joinWith, jsonString]; rfl⟩
        | cons e items => exact ⟨_, by simp [joinWith_cons_cons, jsonString]; rfl⟩
      have hclose : expect (js "]")
          (joinWith (unit ',') ((d :: items).map jsonString) ++ (js "]" ++ rest)) = none := by
        obtain ⟨t, ht⟩ := hquote
        rw [ht, expect, if_neg]
        exact (by rintro ⟨⟩)
      have hlength : ((d :: items).map jsonString).length ≤
          (joinWith (unit ',') ((d :: items).map jsonString)).length :=
        length_le_joinWith fun p hp => by
          obtain ⟨e, -, rfl⟩ := List.mem_map.1 hp
          simp [jsonString]
      simp only [Option.bind_eq_bind, Option.bind_some, hclose]
      refine readItems_joinWith (by simp) h ?_ rest
      rw [List.length_map] at hlength
      rw [List.length_append]
      omega

/-- The script declares what it was built from. -/
theorem readPac_pacText {proxy : JsString} {exclusions : List JsString}
    (hproxy : ∀ u ∈ proxy, isPlainUnit u = true)
    (h : ∀ d ∈ exclusions, ∀ u ∈ d, isPlainUnit u = true) :
    readPac (pacText proxy exclusions) = some (proxy, exclusions) := by
  have htext : pacText proxy exclusions = js "var SHBVPN_PROXY = " ++ (jsonString proxy ++
      (js ";\nvar SHBVPN_EXCLUSIONS = " ++ (jsonStrings exclusions ++ (js ";\n" ++ pacFunction)))) := by
    have hjoin : js ";\nvar SHBVPN_EXCLUSIONS = " = js ";\n" ++ js "var SHBVPN_EXCLUSIONS = " := by
      decide
    simp only [pacText, pacFunction, hjoin, List.append_assoc]
  rw [htext, readPac, expect_append]
  simp only [Option.bind_eq_bind, Option.bind_some, readLiteral_jsonString hproxy, expect_append,
    readArray_jsonStrings h, beq_self_eq_true, if_true]
  rfl

/-! ## Matching -/

section

variable [Platform]

omit [Platform] in
theorem sliceLast_eq_iff {h d : JsString} : sliceLast (d.length) h = d ↔ d <:+ h := by
  rw [sliceLast, List.suffix_iff_eq_drop, eq_comm]

/-- The script and the extension agree on what is excluded. -/
theorem isDirect_eq (host : JsString) (exclusions : List JsString) :
    isDirect (normalizeHost host) exclusions = isExcludedHost host exclusions := by
  show _ = exclusions.any fun d =>
    normalizeHost host == d || (unit '.' :: d).isSuffixOf (normalizeHost host)
  induction exclusions with
  | nil => rfl
  | cons d exclusions ih =>
      have hslice : (sliceLast (d.length + 1) (normalizeHost host) == js "." ++ d) =
          (unit '.' :: d).isSuffixOf (normalizeHost host) := by
        have hlength : d.length + 1 = (unit '.' :: d).length := rfl
        have hdot : js "." ++ d = unit '.' :: d := rfl
        rw [hlength, hdot, Bool.eq_iff_iff, beq_iff_eq, sliceLast_eq_iff, List.isSuffixOf_iff_suffix]
      rw [isDirect, hslice, List.any_cons, ih]
      cases normalizeHost host == d || (unit '.' :: d).isSuffixOf (normalizeHost host) <;> rfl

/-- The labels of a host. -/
def labels (host : JsString) : List JsString := splitAt (unit '.') host

section

omit [Platform]

theorem labels_append (x d : JsString) : labels (x ++ unit '.' :: d) = labels x ++ labels d := by
  simp only [labels, splitAt, List.splitOn_eq_splitOnP]
  exact List.splitOnP_append_cons x d (by simp)

theorem joinWith_labels (host : JsString) : joinWith (unit '.') (labels host) = host :=
  List.intercalate_splitOn _

theorem joinWith_append {separator : UInt16} {a b : List JsString} (ha : a ≠ []) (hb : b ≠ []) :
    joinWith separator (a ++ b) = joinWith separator a ++ separator :: joinWith separator b := by
  induction a with
  | nil => exact absurd rfl ha
  | cons p a ih =>
      cases a with
      | nil =>
          obtain ⟨q, b, rfl⟩ := List.exists_cons_of_ne_nil hb
          simp [joinWith]
      | cons q a =>
          have ih := ih (List.cons_ne_nil q a)
          simp only [List.cons_append, joinWith_cons_cons] at ih ⊢
          rw [ih, List.append_assoc, List.cons_append]

/-- A suffix at a label boundary is a suffix of the labels. -/
theorem labels_suffix_iff {d h : JsString} :
    labels d <:+ labels h ↔ h = d ∨ unit '.' :: d <:+ h := by
  constructor
  · rintro ⟨p, hp⟩
    have hjoin := congrArg (joinWith (unit '.')) hp
    rw [joinWith_labels] at hjoin
    cases p with
    | nil =>
        rw [List.nil_append, joinWith_labels] at hjoin
        exact Or.inl hjoin.symm
    | cons q p =>
        right
        have hne : labels d ≠ [] := List.splitOn_ne_nil _ _
        rw [joinWith_append (List.cons_ne_nil q p) hne, joinWith_labels] at hjoin
        exact ⟨_, hjoin⟩
  · rintro (rfl | ⟨x, rfl⟩)
    · exact List.suffix_refl _
    · rw [labels_append]
      exact List.suffix_append _ _

end

theorem isExcludedHost_iff {host : JsString} {exclusions : List JsString} :
    isExcludedHost host exclusions = true ↔ ∃ d ∈ exclusions, normalizeHost host = d ∨
      labels d <:+ labels (normalizeHost host) := by
  show (exclusions.any fun d =>
    normalizeHost host == d || (unit '.' :: d).isSuffixOf (normalizeHost host)) = true ↔ _
  simp only [List.any_eq_true, Bool.or_eq_true, beq_iff_eq, List.isSuffixOf_iff_suffix,
    labels_suffix_iff]
  refine exists_congr fun d => and_congr_right fun _ => ?_
  tauto

/-! ## The directive -/

omit [Platform] in
theorem isDigit_of_mem_decimal {n : Nat} {u : UInt16} (h : u ∈ decimal n) : isDigit u = true := by
  obtain ⟨c, hc, hu⟩ := List.mem_flatMap.1 h
  have hdigit := Nat.isDigit_of_mem_toDigits (by decide) (by decide) hc
  have hn : 48 ≤ c.toNat ∧ c.toNat ≤ 57 := by
    simpa [Char.isDigit, Char.le_def, UInt32.le_iff_toNat_le] using hdigit
  rw [utf16, if_pos (by omega), List.mem_singleton] at hu
  subst hu
  have hsmall : c.toNat.toUInt16.toNat = c.toNat := by
    simp only [Nat.toUInt16, UInt16.toNat_ofNat']
    omega
  simp [isDigit, hsmall, hn]

/-- The code units of a host with a port. -/
def isAuthorityUnit (u : UInt16) : Bool := isHostUnit u || u == unit ':'

/-- Host and port of a connection, as the directive has them. -/
def Connection.authority (c : Connection) : JsString := c.host ++ js ":" ++ decimal c.port

theorem isAuthorityUnit_of_mem {c : Connection} (hc : c.Valid) {u : UInt16}
    (h : u ∈ c.authority) : isAuthorityUnit u = true := by
  simp only [Connection.authority, List.mem_append] at h
  rcases h with (h | h) | h
  · simp [isAuthorityUnit, hc.units u h]
  · obtain rfl : u = unit ':' := by simpa [js, utf16, unit] using h
    rfl
  · simp [isAuthorityUnit, isHostUnit, isLabelUnit, isDigit_of_mem_decimal h]

omit [Platform] in
/-- Units of an authority are plain, and none is white space, a semicolon or a
capital. -/
theorem isAuthorityUnit_plain {u : UInt16} (h : isAuthorityUnit u = true) :
    isPlainUnit u = true ∧ isSpace u = false ∧ u ≠ unit ';' ∧ isUpper u = false := by
  rw [isAuthorityUnit, Bool.or_eq_true, beq_iff_eq] at h
  rcases h with h | rfl
  · refine ⟨isPlainUnit_of_isHostUnit h, (isHostUnit_plain h).2.2, ?_, (isHostUnit_plain h).1⟩
    rintro rfl
    exact absurd h (by decide)
  · decide

/-- What is said of an answer that is no exclusion: one directive, for one
proxy. -/
structure IsDirective (c : Connection) (answer : JsString) : Prop where
  text : answer = js "HTTPS " ++ c.host ++ js ":" ++ decimal c.port
  /-- `;` separates directives. -/
  single : unit ';' ∉ answer
  words : answer.splitOnP isSpace = [js "HTTPS", c.host ++ js ":" ++ decimal c.port]
  noDirect : ¬ js "DIRECT" <:+: answer

theorem proxyDirective_isDirective {c : Connection} (hc : c.Valid) :
    IsDirective c (proxyDirective c) := by
  have htext : proxyDirective c = js "HTTPS" ++ unit ' ' :: c.authority := by
    have hscheme : js "HTTPS " = js "HTTPS" ++ [unit ' '] := by decide
    simp [proxyDirective, Connection.authority, hscheme]
  have hauthority := fun {u} (h : u ∈ c.authority) =>
    isAuthorityUnit_plain (isAuthorityUnit_of_mem hc h)
  refine ⟨rfl, ?_, ?_, ?_⟩
  · rw [htext, List.mem_append, List.mem_cons]
    rintro (h | h | h)
    · exact absurd h (by decide)
    · exact absurd h (by decide)
    · exact (hauthority h).2.2.1 rfl
  · have hword : ∀ u ∈ js "HTTPS", isSpace u = false := by simp [js, utf16, isSpace]
    rw [htext, List.splitOnP_append_cons_of_forall_mem (by simpa using hword) _ (by decide),
      List.splitOnP_eq_singleton fun u hu => (hauthority hu).2.1]
    rfl
  · intro hinfix
    -- Its first letter occurs nowhere.
    have hmem : unit 'D' ∈ proxyDirective c := hinfix.subset (by decide)
    rw [htext, List.mem_append, List.mem_cons] at hmem
    rcases hmem with h | h | h
    · exact absurd h (by decide)
    · exact absurd h (by decide)
    · exact absurd (hauthority h).2.2.2 (by decide)

/-! ## The script -/

theorem readPac_of_valid {c : Connection} {l : List JsString} (hc : c.Valid) (hl : Normalized l) :
    readPac (pacText (proxyDirective c) l) = some (proxyDirective c, l) := by
  refine readPac_pacText (fun u hu => ?_) fun d hd u hu => isPlainUnit_of_isHostUnit (hl.units d hd u hu)
  have htext : proxyDirective c = js "HTTPS " ++ c.authority := by
    simp [proxyDirective, Connection.authority]
  rw [htext, List.mem_append] at hu
  rcases hu with hu | hu
  · have hscheme : (js "HTTPS ").all isPlainUnit = true := by decide
    exact List.all_eq_true.1 hscheme u hu
  · exact (isAuthorityUnit_plain (isAuthorityUnit_of_mem hc hu)).1

/-- The script that is built for a connection and a list of exclusions answers
`DIRECT` for the hosts that are excluded, which are the hosts whose labels end
with those of an exclusion, and the directive of the connection for all others. -/
theorem pac_routes {connection : JsVal} {exclusions : List JsString} {script : JsString}
    (h : buildPacScript connection exclusions = .ok script) :
    ∃ c l, validateConnection connection = .ok c ∧ isValidHost c.host = true ∧
      toLowerCase c.host = c.host ∧
      normalizeExclusions (.str (joinWith (unit '\n') exclusions)) = .ok l ∧
      ∀ host, ∃ answer, runPac script host = some answer ∧
        (answer = js "DIRECT" ↔ isExcludedHost host l = true) ∧
        (isExcludedHost host l = true ↔ ∃ d ∈ l, normalizeHost host = d ∨
          labels d <:+ labels (normalizeHost host)) ∧
        (isExcludedHost host l = false → IsDirective c answer) := by
  simp only [buildPacScript, bind, Except.bind, pure, Except.pure] at h
  split at h
  · cases h
  rename_i c hc
  split at h
  · cases h
  rename_i l hl
  obtain rfl := Except.ok.inj h
  have hvalid := validateConnection_valid hc
  have hdirective := proxyDirective_isDirective hvalid
  refine ⟨c, l, hc, hvalid.host, hvalid.lower, hl, fun host => ?_⟩
  have hrun : runPac (pacText (proxyDirective c) l) host =
      some (findProxyForURL (proxyDirective c) l host) := by
    rw [runPac, readPac_of_valid hvalid (normalizeExclusions_normalized hl)]
    rfl
  refine ⟨_, hrun, ?_, isExcludedHost_iff, ?_⟩
  · rw [findProxyForURL, isDirect_eq]
    cases isExcludedHost host l with
    | true => simp
    | false =>
        have hne : proxyDirective c ≠ js "DIRECT" := fun he =>
          hdirective.noDirect (he ▸ List.infix_refl _)
        simpa using hne
  · intro hout
    rw [findProxyForURL, isDirect_eq, hout]
    exact hdirective

end

section

attribute [local instance] Platform.ascii

theorem pac_routes_sample :
    ∃ script, buildPacScript Connection.sample.toJs [js "example.com"] = .ok script ∧
      ∀ host, ∃ answer, runPac script host = some answer := by
  have hl : normalizeExclusions (.str (joinWith (unit '\n') [js "example.com"])) =
      .ok [js "example.com"] := by decide +kernel
  have h : buildPacScript Connection.sample.toJs [js "example.com"] =
      .ok (pacText (proxyDirective .sample) [js "example.com"]) := by
    rw [buildPacScript, validateConnection_toJs Connection.sample_valid, hl]
    rfl
  obtain ⟨c, l, -, -, -, -, hroute⟩ := pac_routes h
  exact ⟨_, h, fun host => (hroute host).imp fun _ hr => hr.1⟩

end

end BrowserVpn
