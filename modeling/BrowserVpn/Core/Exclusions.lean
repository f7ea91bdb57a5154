import Mathlib.Data.List.Induction
import BrowserVpn.Core.Connection

/-!
# Core.Exclusions — the list of excluded domains

`normalizeExclusions` and `isExcludedHost` of `core.mjs`. The list that
`normalizeExclusions` returns is written to storage, joined and normalized
again on every read, and normalized once more inside the PAC script; it is a
fixed point of that round trip (`normalizeExclusions_join`).
-/

namespace BrowserVpn

/-- `[\s,;]`. -/
def isSeparator (u : UInt16) : Bool := isSpace u || u == unit ',' || u == unit ';'

/-- `raw.split(/[\s,;]+/).filter(Boolean)`. -/
def exclusionItems (raw : JsString) : List JsString :=
  (raw.splitOnP isSeparator).filter fun item => !item.isEmpty

/-- `item.replace(/^\*\./, '')`. -/
def dropWildcard (item : JsString) : JsString :=
  if (js "*.").isPrefixOf item then item.drop 2 else item

/-- Host units are no separators. -/
theorem isHostUnit_not_separator {u : UInt16} (h : isHostUnit u = true) :
    isSeparator u = false := by
  have hplain := (isHostUnit_plain h).2.2
  have hcomma : u ≠ unit ',' := by
    rintro rfl
    exact absurd h (by decide)
  have hsemi : u ≠ unit ';' := by
    rintro rfl
    exact absurd h (by decide)
  simp [isSeparator, hplain, hcomma, hsemi]

/-- Splitting undoes joining for non-empty pieces without separators. -/
theorem exclusionItems_join {domains : List JsString}
    (h : ∀ d ∈ domains, d ≠ [] ∧ ∀ u ∈ d, isSeparator u = false) :
    exclusionItems (joinWith (unit '\n') domains) = domains := by
  have hnewline : isSeparator (unit '\n') = true := by decide
  induction domains with
  | nil => rfl
  | cons d rest ih =>
      obtain ⟨hne, hsep⟩ := h d (by simp)
      have hkeep : (fun item : JsString => !item.isEmpty) d = true := by simpa using hne
      cases rest with
      | nil =>
          have hsplit : (joinWith (unit '\n') [d]).splitOnP isSeparator = [d] := by
            rw [joinWith, List.intercalate_singleton]
            exact List.splitOnP_eq_singleton hsep
          simp [exclusionItems, hsplit, hne]
      | cons e rest =>
          have hjoin : joinWith (unit '\n') (d :: e :: rest) =
              d ++ unit '\n' :: joinWith (unit '\n') (e :: rest) := by
            simp [joinWith]
          have htail := ih fun p hp => h p (List.mem_cons_of_mem d hp)
          rw [exclusionItems] at htail ⊢
          rw [hjoin, List.splitOnP_append_cons_of_forall_mem hsep _ hnewline,
            List.filter_cons, if_pos hkeep, htail]

section

variable [Platform]

/-- One turn of the loop of `normalizeExclusions`. -/
def addExclusion (result : List JsString) (item : JsString) : Except String (List JsString) :=
  let domain := toLowerCase (dropWildcard item)
  if !isValidHost domain then
    .error "Некорректный домен в исключениях. Укажите домен без схемы и пути."
  else
    let result' := if result.contains domain then result else result ++ [domain]
    if result'.length > maxExclusions then
      .error s!"Можно добавить не больше {maxExclusions} исключений."
    else .ok result'

def normalizeExclusions (raw : JsVal) : Except String (List JsString) :=
  match raw with
  | .str s => (exclusionItems s).foldlM addExclusion []
  | _ => .error "Введите домены для исключений."

def isExcludedHost (host : JsString) (exclusions : List JsString) : Bool :=
  let lower := toLowerCase host
  let normalizedHost := if lower.getLast? = some (unit '.') then lower.dropLast else lower
  exclusions.any fun domain =>
    normalizedHost == domain || (unit '.' :: domain).isSuffixOf normalizedHost

/-! ## Normalized lists -/

/-- A normalized list: valid lower-case domains, at most 100, none twice. -/
structure Normalized (domains : List JsString) : Prop where
  nodup : domains.Nodup
  limit : domains.length ≤ maxExclusions
  valid : ∀ d ∈ domains, isValidHost d = true
  lower : ∀ d ∈ domains, toLowerCase d = d
  units : ∀ d ∈ domains, ∀ u ∈ d, isHostUnit u = true

theorem Normalized.nil : Normalized [] :=
  ⟨List.nodup_nil, by decide, by simp, by simp, by simp⟩

theorem addExclusion_ok {result result' : List JsString} {item : JsString}
    (h : addExclusion result item = .ok result') :
    isValidHost (toLowerCase (dropWildcard item)) = true ∧ result'.length ≤ maxExclusions ∧
      result' = if result.contains (toLowerCase (dropWildcard item)) then result
        else result ++ [toLowerCase (dropWildcard item)] := by
  unfold addExclusion at h
  set domain := toLowerCase (dropWildcard item)
  by_cases hvalid : isValidHost domain = true
  · rw [if_neg (by simp [hvalid])] at h
    by_cases hlimit : (if result.contains domain = true then result
        else result ++ [domain]).length > maxExclusions
    · rw [if_pos hlimit] at h
      cases h
    · rw [if_neg hlimit, Except.ok.injEq] at h
      subst h
      exact ⟨hvalid, by omega, rfl⟩
  · rw [if_pos (by simpa using hvalid)] at h
    cases h

theorem addExclusion_normalized {result result' : List JsString} {item : JsString}
    (hr : Normalized result) (h : addExclusion result item = .ok result') :
    Normalized result' := by
  obtain ⟨hvalid, hlimit, heq⟩ := addExclusion_ok h
  have hlow := toLowerCase_of_isValidHost hvalid
  obtain ⟨-, -, hunits⟩ := isValidHost_toLowerCase hvalid
  rw [hlow] at hunits
  split at heq
  · rw [heq]
    exact hr
  · rename_i hmem
    subst heq
    have hcases : ∀ d ∈ result ++ [toLowerCase (dropWildcard item)],
        d ∈ result ∨ d = toLowerCase (dropWildcard item) := by simp
    refine ⟨?_, hlimit, ?_, ?_, ?_⟩
    · rw [List.nodup_append]
      refine ⟨hr.nodup, by simp, ?_⟩
      rintro a ha b hb rfl
      rw [List.mem_singleton] at hb
      subst hb
      exact hmem (by simpa using ha)
    all_goals
      intro d hd
      rcases hcases d hd with hd | rfl
    · exact hr.valid d hd
    · exact hvalid
    · exact hr.lower d hd
    · exact hlow
    · exact hr.units d hd
    · exact hunits

theorem foldlM_normalized {items result result' : List JsString} (hr : Normalized result)
    (h : items.foldlM addExclusion result = .ok result') : Normalized result' := by
  induction items generalizing result with
  | nil =>
      cases h
      exact hr
  | cons item rest ih =>
      rw [List.foldlM_cons] at h
      cases hadd : addExclusion result item with
      | error e =>
          rw [hadd] at h
          cases h
      | ok next =>
          rw [hadd] at h
          exact ih (addExclusion_normalized hr hadd) h

theorem normalizeExclusions_normalized {raw : JsVal} {domains : List JsString}
    (h : normalizeExclusions raw = .ok domains) : Normalized domains := by
  cases raw with
  | str s => exact foldlM_normalized Normalized.nil h
  | _ => cases h

/-- The loop adds each domain of a normalized list. -/
theorem foldlM_append (rest result : List JsString) (h : Normalized (result ++ rest)) :
    rest.foldlM addExclusion result = .ok (result ++ rest) := by
  induction rest generalizing result with
  | nil => simp [pure, Except.pure]
  | cons d rest ih =>
      have hd : d ∈ result ++ d :: rest := by simp
      have hvalid := h.valid d hd
      have hlow := h.lower d hd
      have hwild : dropWildcard d = d := by
        rw [dropWildcard]
        split
        · rename_i hpre
          obtain ⟨t, ht⟩ := List.isPrefixOf_iff_prefix.mp hpre
          have hstar := h.units d hd (unit '*') (by rw [← ht]; simp [js, utf16, unit])
          exact absurd hstar (by decide)
        · rfl
      have hfresh : result.contains d = false := by
        have hnodup := List.nodup_append.mp h.nodup
        rw [Bool.eq_false_iff]
        intro hc
        exact hnodup.2.2 d (by simpa using hc) d (by simp) rfl
      have hadd : addExclusion result d = .ok (result ++ [d]) := by
        have hlen : ¬ (result ++ [d]).length > maxExclusions := by
          have := h.limit
          simp only [List.length_append, List.length_cons, List.length_nil] at this ⊢
          omega
        simp only [addExclusion, hwild, hlow, hvalid, hfresh, Bool.not_true, Bool.false_eq_true,
          if_false, if_neg hlen]
      rw [List.foldlM_cons, hadd]
      have hassoc : result ++ d :: rest = (result ++ [d]) ++ rest := by simp
      rw [hassoc] at h ⊢
      exact ih _ h

/-- A normalized list survives joining and normalizing. -/
theorem normalizeExclusions_join {domains : List JsString} (h : Normalized domains) :
    normalizeExclusions (.str (joinWith (unit '\n') domains)) = .ok domains := by
  have hitems : exclusionItems (joinWith (unit '\n') domains) = domains := by
    refine exclusionItems_join fun d hd => ⟨?_, ?_⟩
    · rintro rfl
      exact absurd (h.valid [] hd) (by simp [isValidHost])
    · exact fun u hu => isHostUnit_not_separator (h.units d hd u hu)
  rw [normalizeExclusions, hitems]
  exact foldlM_append domains [] h

/-! ## The canonical form of a text -/

/-- The domains that the items of a text name. -/
def exclusionDomains (s : JsString) : List JsString :=
  (exclusionItems s).map fun item => toLowerCase (dropWildcard item)

section

omit [Platform]

/-- One more element is a new one or changes nothing. -/
theorem eraseDups_concat (l : List JsString) (d : JsString) :
    (l ++ [d]).eraseDups = if d ∈ l then l.eraseDups else l.eraseDups ++ [d] := by
  rw [List.eraseDups_append]
  split
  · rename_i h
    simp [List.removeAll, h]
  · rename_i h
    have hone : [d].eraseDups = [d] := by simp [List.eraseDups_cons]
    simp [List.removeAll, h, hone]

theorem nodup_eraseDups (l : List JsString) : l.eraseDups.Nodup := by
  induction l using List.reverseRecOn with
  | nil => exact List.nodup_nil
  | append_singleton l d ih =>
      rw [eraseDups_concat]
      split
      · exact ih
      · rename_i hnew
        refine List.nodup_append.2 ⟨ih, by simp, ?_⟩
        rintro a ha b hb rfl
        rw [List.mem_singleton] at hb
        subst hb
        exact hnew (List.mem_eraseDups.1 ha)

theorem length_eraseDups_le (l rest : List JsString) :
    l.eraseDups.length ≤ (l ++ rest).eraseDups.length := by
  rw [List.eraseDups_append, List.length_append]
  omega

end

/-- What one turn does when the list so far is that of the domains `seen`. -/
theorem addExclusion_eraseDups (seen : List JsString) (item : JsString) (result : List JsString) :
    addExclusion seen.eraseDups item = .ok result ↔
      isValidHost (toLowerCase (dropWildcard item)) = true ∧
        (seen ++ [toLowerCase (dropWildcard item)]).eraseDups.length ≤ maxExclusions ∧
          result = (seen ++ [toLowerCase (dropWildcard item)]).eraseDups := by
  set domain := toLowerCase (dropWildcard item) with hdomain
  have hpush : (if seen.eraseDups.contains domain = true then seen.eraseDups
      else seen.eraseDups ++ [domain]) = (seen ++ [domain]).eraseDups := by
    rw [eraseDups_concat]
    by_cases hmem : domain ∈ seen
    · simp [hmem]
    · simp [hmem]
  simp only [addExclusion, ← hdomain, hpush]
  by_cases hvalid : isValidHost domain = true
  · rw [if_neg (by simp [hvalid])]
    by_cases hlimit : (seen ++ [domain]).eraseDups.length ≤ maxExclusions
    · rw [if_neg (by omega), Except.ok.injEq]
      exact ⟨fun h => ⟨hvalid, hlimit, h.symm⟩, fun h => h.2.2.symm⟩
    · rw [if_pos (by omega)]
      exact ⟨fun h => (by cases h), fun h => absurd h.2.1 hlimit⟩
  · rw [if_pos (by simpa using hvalid)]
    exact ⟨fun h => (by cases h), fun h => absurd h.1 hvalid⟩

/-- The loop over `items`, from the list of the domains `seen`. The limit holds of
every prefix when it holds at the end. -/
theorem foldlM_eraseDups (items seen : List JsString) (result : List JsString)
    (hseen : seen.eraseDups.length ≤ maxExclusions) :
    items.foldlM addExclusion seen.eraseDups = .ok result ↔
      (∀ item ∈ items, isValidHost (toLowerCase (dropWildcard item)) = true) ∧
        (seen ++ items.map fun item => toLowerCase (dropWildcard item)).eraseDups.length ≤
          maxExclusions ∧
          result = (seen ++ items.map fun item => toLowerCase (dropWildcard item)).eraseDups := by
  induction items generalizing seen with
  | nil =>
      simp only [List.foldlM_nil, pure, Except.pure, Except.ok.injEq, List.map_nil, List.append_nil]
      exact ⟨fun h => ⟨by simp, hseen, h.symm⟩, fun h => h.2.2.symm⟩
  | cons item items ih =>
      have hsplit : seen ++ (item :: items).map (fun item => toLowerCase (dropWildcard item)) =
          (seen ++ [toLowerCase (dropWildcard item)]) ++
            items.map fun item => toLowerCase (dropWildcard item) := by simp
      rw [List.foldlM_cons, hsplit]
      constructor
      · intro h
        cases hadd : addExclusion seen.eraseDups item with
        | error e =>
            rw [hadd] at h
            cases h
        | ok next =>
            obtain ⟨hvalid, hlimit, rfl⟩ := (addExclusion_eraseDups seen item next).1 hadd
            rw [hadd] at h
            obtain ⟨hrest, hlength, hresult⟩ := (ih _ hlimit).1 h
            refine ⟨?_, hlength, hresult⟩
            intro i hi
            rcases List.mem_cons.1 hi with rfl | hi
            · exact hvalid
            · exact hrest i hi
      · rintro ⟨hvalid, hlength, hresult⟩
        have hlimit := (length_eraseDups_le _ _).trans hlength
        have hadd := (addExclusion_eraseDups seen item _).2 ⟨hvalid item (by simp), hlimit, rfl⟩
        rw [hadd]
        exact (ih _ hlimit).2 ⟨fun i hi => hvalid i (List.mem_cons_of_mem _ hi), hlength, hresult⟩

/-- What a text is normalized to, and when. -/
theorem normalizeExclusions_eq_ok {s : JsString} {domains : List JsString} :
    normalizeExclusions (.str s) = .ok domains ↔
      (∀ d ∈ exclusionDomains s, isValidHost d = true) ∧
        (exclusionDomains s).eraseDups.length ≤ maxExclusions ∧
          domains = (exclusionDomains s).eraseDups := by
  have hloop := foldlM_eraseDups (exclusionItems s) [] domains (by decide)
  simpa [normalizeExclusions, exclusionDomains] using hloop

theorem mem_exclusionDomains {s t : JsString}
    (h : ∀ item, item ∈ exclusionItems s ↔ item ∈ exclusionItems t) (d : JsString) :
    d ∈ exclusionDomains s ↔ d ∈ exclusionDomains t := by
  simp [exclusionDomains, h]

/-- Texts of the same items are normalized alike, up to the order. -/
theorem perm_of_items {s t : JsString} {domains : List JsString}
    (h : ∀ item, item ∈ exclusionItems s ↔ item ∈ exclusionItems t)
    (hs : normalizeExclusions (.str s) = .ok domains) :
    ∃ other, normalizeExclusions (.str t) = .ok other ∧ other.Perm domains := by
  obtain ⟨hvalid, hlimit, rfl⟩ := normalizeExclusions_eq_ok.1 hs
  have hperm : (exclusionDomains t).eraseDups.Perm (exclusionDomains s).eraseDups := by
    refine (List.perm_ext_iff_of_nodup (nodup_eraseDups _) (nodup_eraseDups _)).2 fun d => ?_
    rw [List.mem_eraseDups, List.mem_eraseDups]
    exact (mem_exclusionDomains h d).symm
  refine ⟨_, normalizeExclusions_eq_ok.2 ⟨?_, ?_, rfl⟩, hperm⟩
  · exact fun d hd => hvalid d ((mem_exclusionDomains h d).2 hd)
  · rw [hperm.length_eq]
    exact hlimit

/-- Normalization is canonical: it takes exactly the texts of at most 100 valid
hosts to the list of them, which stays as it is from then on and depends on the
items alone. -/
theorem normalizeExclusions_canonical :
    (∀ s domains, normalizeExclusions (.str s) = .ok domains ↔
      (∀ d ∈ exclusionDomains s, isValidHost d = true) ∧
        (exclusionDomains s).eraseDups.length ≤ maxExclusions ∧
          domains = (exclusionDomains s).eraseDups) ∧
    (∀ s domains, normalizeExclusions (.str s) = .ok domains →
      (∀ d ∈ domains, toLowerCase d = d ∧ isValidHost d = true ∧ ∀ u ∈ d, isSeparator u = false) ∧
        normalizeExclusions (.str (joinWith (unit '\n') domains)) = .ok domains) ∧
    ∀ s t, (∀ item, item ∈ exclusionItems s ↔ item ∈ exclusionItems t) →
      ((∃ domains, normalizeExclusions (.str s) = .ok domains) ↔
        ∃ domains, normalizeExclusions (.str t) = .ok domains) ∧
      ∀ domains other, normalizeExclusions (.str s) = .ok domains →
        normalizeExclusions (.str t) = .ok other → other.Perm domains := by
  refine ⟨fun s domains => normalizeExclusions_eq_ok, fun s domains h => ?_, fun s t h => ?_⟩
  · have hnormal := normalizeExclusions_normalized h
    refine ⟨fun d hd => ⟨hnormal.lower d hd, hnormal.valid d hd, fun u hu => ?_⟩,
      normalizeExclusions_join hnormal⟩
    exact isHostUnit_not_separator (hnormal.units d hd u hu)
  · refine ⟨⟨fun ⟨domains, hs⟩ => ?_, fun ⟨domains, ht⟩ => ?_⟩, fun domains other hs ht => ?_⟩
    · obtain ⟨other, ht, -⟩ := perm_of_items h hs
      exact ⟨other, ht⟩
    · obtain ⟨other, hs, -⟩ := perm_of_items (fun item => (h item).symm) ht
      exact ⟨other, hs⟩
    · obtain ⟨other', ht', hperm⟩ := perm_of_items h hs
      rw [ht] at ht'
      rw [Except.ok.inj ht']
      exact hperm

end

end BrowserVpn
