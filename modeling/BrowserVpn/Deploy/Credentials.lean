import BrowserVpn.Server.Credentials
import BrowserVpn.Data.Base64
import Mathlib.Data.List.DropRight

/-!
# Deploy.Credentials — the four readers of the credentials file

The manager checks the file, the server authenticates against it, `export-key.py`
puts it into the connection key and `healthcheck.py` sends it. Python reads text
and turns every line end into LF; the server reads bytes. The manager and the server
accept the same lines but not the same endings, and the two scripts strip white
space that the server keeps.
-/

namespace BrowserVpn

open Data

namespace Python

/-! ## Python strings -/

/-- How a file opened in text mode reads: with line ends translated. -/
def universalNewlines : List Char → List Char
  | [] => []
  | '\r' :: '\n' :: rest => '\n' :: universalNewlines rest
  | '\r' :: rest => '\n' :: universalNewlines rest
  | c :: rest => c :: universalNewlines rest

/-- `str.isspace` on one character. -/
def isSpace (c : Char) : Bool :=
  let n := c.toNat
  (9 ≤ n && n ≤ 13) || (28 ≤ n && n ≤ 32) || n == 0x85 || n == 0xA0 || n == 0x1680 ||
    (0x2000 ≤ n && n ≤ 0x200A) || n == 0x2028 || n == 0x2029 || n == 0x202F || n == 0x205F ||
    n == 0x3000

/-- `str.strip()`. -/
def strip (s : List Char) : List Char := (s.dropWhile isSpace).rdropWhile isSpace

/-- `s.split(separator, 1)` unpacked into two, `none` for the `ValueError`. -/
def splitOnce (s : List Char) (separator : Char) : Option (List Char × List Char) :=
  splitFirst separator s

/-- Neither end is white space. -/
def IsStripped (s : List Char) : Prop :=
  (∀ c ∈ s.head?, isSpace c = false) ∧ ∀ c ∈ s.getLast?, isSpace c = false

theorem strip_eq_self {s : List Char} : strip s = s ↔ IsStripped s := by
  have hfront : s.dropWhile isSpace = s ↔ ∀ c ∈ s.head?, isSpace c = false := by
    cases s with
    | nil => simp
    | cons c s => simp [List.dropWhile_eq_self_iff]
  have hback : s.rdropWhile isSpace = s ↔ ∀ c ∈ s.getLast?, isSpace c = false := by
    rw [List.rdropWhile_eq_self_iff]
    rcases s.eq_nil_or_concat with rfl | ⟨t, d, rfl⟩ <;> simp
  constructor
  · intro h
    -- Both drops only shorten, so that neither does anything.
    have hdrop : s.dropWhile isSpace = s := by
      refine (List.dropWhile_suffix isSpace).eq_of_length_le ?_
      have hle := (List.rdropWhile_prefix isSpace (l := s.dropWhile isSpace)).length_le
      rw [strip] at h
      rwa [h] at hle
    rw [strip, hdrop] at h
    exact ⟨hfront.1 hdrop, hback.1 h⟩
  · rintro ⟨hhead, hlast⟩
    rw [strip, hfront.2 hhead, hback.2 hlast]

theorem isStripped_strip (s : List Char) : IsStripped (strip s) := by
  rw [strip]
  constructor
  · intro c hc
    -- what is left begins as it did before the end was dropped
    rcases List.head?_eq_some_iff.1 hc with ⟨rest, hrest⟩
    rcases List.rdropWhile_prefix isSpace (l := s.dropWhile isSpace) with ⟨back, hback⟩
    rw [hrest, List.cons_append] at hback
    have hne : s.dropWhile isSpace ≠ [] := by simp [← hback]
    have hfirst := List.head_dropWhile_not isSpace hne
    simpa [← hback] using hfirst
  · intro c hc
    rcases List.getLast?_eq_some_iff.1 hc with ⟨front, hfront⟩
    have hne : (s.dropWhile isSpace).rdropWhile isSpace ≠ [] := by simp [hfront]
    have hlast := List.rdropWhile_last_not isSpace (s.dropWhile isSpace) hne
    simpa [hfront] using hlast

/-- A line end does not change what is stripped. -/
theorem strip_newline (s : List Char) : strip (s ++ ['\n']) = strip s := by
  have hspace : isSpace '\n' = true := by decide
  rw [strip, List.dropWhile_append]
  split
  · rename_i hempty
    rw [List.isEmpty_iff] at hempty
    rw [strip, hempty, List.dropWhile_cons_of_pos hspace, List.dropWhile_nil]
  · rw [List.rdropWhile_concat_pos _ _ _ hspace, strip]

/-! ## Line ends -/

theorem universalNewlines_cons {c : Char} (h : c ≠ '\r') (s : List Char) :
    universalNewlines (c :: s) = c :: universalNewlines s := by
  rw [universalNewlines]
  · rintro rest rfl
    exact absurd rfl h
  · exact h

theorem cr_notMem_universalNewlines (s : List Char) : '\r' ∉ universalNewlines s := by
  induction s using universalNewlines.induct with
  | case1 => simp [universalNewlines]
  | case2 rest ih => simpa [universalNewlines] using ih
  | case3 rest hne ih => simpa [universalNewlines] using ih
  | case4 c rest h1 h2 ih =>
      have hc : c ≠ '\r' := h2
      rw [universalNewlines_cons hc, List.mem_cons]
      rintro (rfl | hmem)
      · exact hc rfl
      · exact ih hmem

theorem universalNewlines_eq_nil {s : List Char} : universalNewlines s = [] ↔ s = [] := by
  refine ⟨fun h => ?_, fun h => by rw [h, universalNewlines]⟩
  cases s using universalNewlines.fun_cases with
  | case1 => rfl
  | case2 rest => simp [universalNewlines] at h
  | case3 rest hne => simp [universalNewlines] at h
  | case4 c rest h1 h2 => rw [universalNewlines_cons h2] at h; cases h

/-- The line ends that read as one LF, and none. -/
def lineEndings : List (List Char) := [[], ['\n'], ['\r', '\n'], ['\r']]

/-- A text that begins with an LF once it is read, and has at most that one. -/
theorem eq_nil_of_lf {line rest : List Char} (h : ∀ c ∈ line, c ≠ '\n')
    (hs : '\n' :: universalNewlines rest = line ∨ '\n' :: universalNewlines rest = line ++ ['\n']) :
    line = [] ∧ rest = [] := by
  cases line with
  | nil => simpa [universalNewlines_eq_nil] using hs
  | cons d line =>
      have hd : d = '\n' := by rcases hs with hs | hs <;> exact (List.cons.inj hs).1.symm
      exact absurd hd (h d (by simp))

/-- What reads as a line, with an LF or without, is the line with a line end or
without. -/
theorem eq_append_of_universalNewlines {s line : List Char} (h : ∀ c ∈ line, c ≠ '\n')
    (hs : universalNewlines s = line ∨ universalNewlines s = line ++ ['\n']) :
    ∃ ending ∈ lineEndings, s = line ++ ending := by
  induction s using universalNewlines.induct generalizing line with
  | case1 =>
      have hline : line = [] := by
        rcases hs with hs | hs
        · exact hs.symm
        · simp [universalNewlines] at hs
      exact ⟨[], by simp [lineEndings], by simp [hline]⟩
  | case2 rest ih =>
      rw [universalNewlines] at hs
      obtain ⟨rfl, rfl⟩ := eq_nil_of_lf h hs
      exact ⟨['\r', '\n'], by simp [lineEndings], rfl⟩
  | case3 rest hne ih =>
      rw [universalNewlines] at hs
      · obtain ⟨rfl, rfl⟩ := eq_nil_of_lf h hs
        exact ⟨['\r'], by simp [lineEndings], rfl⟩
      · exact hne
  | case4 c rest h1 h2 ih =>
      rw [universalNewlines_cons h2] at hs
      by_cases hc : c = '\n'
      · subst hc
        obtain ⟨rfl, rfl⟩ := eq_nil_of_lf h hs
        exact ⟨['\n'], by simp [lineEndings], rfl⟩
      · cases line with
        | nil =>
            rcases hs with hs | hs
            · cases hs
            · exact absurd (List.cons.inj hs).1 hc
        | cons d line =>
            obtain rfl : c = d := by rcases hs with hs | hs <;> exact (List.cons.inj hs).1
            obtain ⟨ending, hending, rfl⟩ := @ih line (fun e he => h e (by simp [he]))
              (hs.imp (fun e => (List.cons.inj e).2) fun e => (List.cons.inj e).2)
            exact ⟨ending, hending, rfl⟩

/-- A line is read as it stands. -/
theorem universalNewlines_append {line : List Char} (h : ∀ c ∈ line, c ≠ '\r') (s : List Char) :
    universalNewlines (line ++ s) = line ++ universalNewlines s := by
  induction line with
  | nil => rfl
  | cons c line ih =>
      rw [List.cons_append, universalNewlines_cons (h c (by simp)), ih fun d hd => h d (by simp [hd]),
        List.cons_append]

end Python

open Python

/-! ## The readers -/

/-- What the manager finds at the path of the credentials. -/
inductive CredentialsPath where
  | symlink
  | missing
  | file (content : List Char)

/-- The line end that `ensure_credentials` takes off. -/
def trimLineEnd (value : List Char) : List Char :=
  if ['\r', '\n'].isSuffixOf value then value.take (value.length - 2)
  else if ['\n'].isSuffixOf value then value.take (value.length - 1)
  else value

/-- `ensure_credentials`: what it writes, if anything. `token` is what
`secrets.token_urlsafe` draws. -/
def ensureCredentials (path : CredentialsPath) (token : List Char) :
    Except String (Option (List Char)) :=
  match path with
  | .symlink => .error "Saved credentials must not be a symlink"
  | .missing => .ok (some ("browser:".toList ++ token ++ ['\n']))
  | .file content =>
      let value := trimLineEnd (universalNewlines content)
      if !value.contains ':' || value.any fun c => c == '\r' || c == '\n' then
        .error "Saved credentials are invalid"
      else match splitOnce value ':' with
        | none => .error "Saved credentials are invalid"
        | some (user, password) =>
            if user.isEmpty || password.isEmpty then .error "Saved credentials are invalid"
            else .ok none

/-- The username and the password that `export-key.py` puts into the key. -/
def exportedCredentials (content : List Char) : Option (List Char × List Char) :=
  splitOnce (strip (universalNewlines content)) ':'

/-- What `healthcheck.py` encodes. -/
def healthcheckCredentials (content : List Char) : List Char := strip (universalNewlines content)

/-! ## What is accepted -/

/-- A line `user:password`. -/
structure IsCredentialText (line : List Char) : Prop where
  oneLine : ∀ c ∈ line, c ≠ '\r' ∧ c ≠ '\n'
  parts : ∃ user password, line = user ++ ':' :: password ∧ ':' ∉ user ∧ user ≠ [] ∧ password ≠ []

theorem eq_trimLineEnd {value : List Char} (h : '\r' ∉ value) :
    value = trimLineEnd value ∨ value = trimLineEnd value ++ ['\n'] := by
  rw [trimLineEnd, if_neg fun hs => h ((List.isSuffixOf_iff_suffix.1 hs).subset (by simp))]
  split
  · rename_i hsuffix
    obtain ⟨t, rfl⟩ := List.isSuffixOf_iff_suffix.1 hsuffix
    exact Or.inr (by simp)
  · exact Or.inl rfl

theorem trimLineEnd_line {line : List Char} (h : ∀ c ∈ line, c ≠ '\r' ∧ c ≠ '\n') :
    trimLineEnd line = line ∧ trimLineEnd (line ++ ['\n']) = line := by
  have hcr : '\r' ∉ line := fun hc => (h _ hc).1 rfl
  have hlf : '\n' ∉ line := fun hc => (h _ hc).2 rfl
  constructor
  · rcases eq_trimLineEnd hcr with he | he
    · exact he.symm
    · exact absurd (by rw [he]; simp) hlf
  · have hcr' : '\r' ∉ line ++ ['\n'] := by simp [hcr]
    rcases eq_trimLineEnd hcr' with he | he
    · -- Then the LF would be left, which the second branch takes.
      have hsuffix : ['\n'].isSuffixOf (line ++ ['\n']) = true :=
        List.isSuffixOf_iff_suffix.2 (List.suffix_append line ['\n'])
      rw [trimLineEnd, if_neg fun hs => hcr' ((List.isSuffixOf_iff_suffix.1 hs).subset (by simp)),
        if_pos hsuffix]
      simp
    · exact (List.append_inj_left' he rfl).symm

/-- Lines with a line end read as lines with an LF or without. -/
theorem universalNewlines_line {line ending : List Char} (h : ∀ c ∈ line, c ≠ '\r' ∧ c ≠ '\n')
    (he : ending ∈ lineEndings) : universalNewlines (line ++ ending) = line ∨
      universalNewlines (line ++ ending) = line ++ ['\n'] := by
  rw [universalNewlines_append fun c hc => (h c hc).1]
  simp only [lineEndings, List.mem_cons, List.not_mem_nil, or_false] at he
  rcases he with rfl | rfl | rfl | rfl
  · exact Or.inl (by simp [universalNewlines])
  · exact Or.inr (by simp [universalNewlines])
  · exact Or.inr (by simp [universalNewlines])
  · exact Or.inr (by simp [universalNewlines])

/-- The manager accepts a line with any line end, and nothing else. -/
theorem ensureCredentials_file {content token : List Char} :
    (∃ written, ensureCredentials (.file content) token = .ok written) ↔
      ∃ line, IsCredentialText line ∧ ∃ ending ∈ lineEndings, content = line ++ ending := by
  constructor
  · rintro ⟨written, h⟩
    rw [ensureCredentials] at h
    have hvalue := eq_trimLineEnd (cr_notMem_universalNewlines content)
    generalize trimLineEnd (universalNewlines content) = value at h hvalue
    split at h
    · cases h
    rename_i hclean
    split at h
    · cases h
    rename_i user password hsplit
    split at h
    · cases h
    rename_i hparts
    obtain ⟨rfl, huser⟩ := splitFirst_eq_some.1 hsplit
    simp only [Bool.or_eq_true, not_or, Bool.not_eq_true, Bool.not_eq_false', List.any_eq_false,
      List.isEmpty_eq_false_iff, beq_eq_false_iff_ne] at hclean hparts
    have hline : ∀ c ∈ user ++ ':' :: password, c ≠ '\r' ∧ c ≠ '\n' := by
      intro c hc
      simpa using hclean.2 c hc
    exact ⟨_, ⟨hline, user, password, rfl, huser, hparts.1, hparts.2⟩,
      eq_append_of_universalNewlines (fun c hc => (hline c hc).2) hvalue⟩
  · rintro ⟨line, ⟨hline, user, password, rfl, huser, hne, hne'⟩, ending, hending, rfl⟩
    have htrim : trimLineEnd (universalNewlines (user ++ ':' :: password ++ ending)) =
        user ++ ':' :: password := by
      rcases universalNewlines_line hline hending with h | h <;> rw [h]
      · exact (trimLineEnd_line hline).1
      · exact (trimLineEnd_line hline).2
    have hany : (user ++ ':' :: password).any (fun c => c == '\r' || c == '\n') = false := by
      rw [List.any_eq_false]
      intro c hc
      simpa using hline c hc
    have hsplit : splitOnce (user ++ ':' :: password) ':' = some (user, password) :=
      splitFirst_eq_some.2 ⟨rfl, huser⟩
    refine ⟨none, ?_⟩
    simp only [ensureCredentials, htrim, hany, hsplit]
    simp [hne, hne']

/-- What the server drops from the end of a line, as text. -/
def serverTextEndings : List (List Char) := [[], ['\n'], ['\r', '\n'], ['\n', '\r', '\n']]

theorem credentialLine_utf8 (user password : List Char) :
    credentialLine (utf8 user) (utf8 password) = utf8 (user ++ ':' :: password) := by
  rw [utf8_append, utf8_cons_ascii (by decide)]
  rfl

theorem isCredentials_utf8 {user password : List Char} :
    IsCredentials (utf8 user) (utf8 password) ↔
      ':' ∉ user ∧ IsCredentialText (user ++ ':' :: password) := by
  have hbytes : ∀ c : Char, c.toNat < 128 →
      (asciiByte c ∈ credentialLine (utf8 user) (utf8 password) ↔ c ∈ user ++ ':' :: password) := by
    intro c hc
    rw [credentialLine_utf8, asciiByte_mem_utf8 hc]
  have hcolon : colon ∈ utf8 user ↔ ':' ∈ user := asciiByte_mem_utf8 (c := ':') (by decide)
  constructor
  · intro h
    have huser : ':' ∉ user := fun hmem => h.colon_notMem (hcolon.2 hmem)
    refine ⟨huser, ⟨fun c hc => ⟨?_, ?_⟩, user, password, rfl, huser, ?_, ?_⟩⟩
    · rintro rfl
      exact (h.line _ ((hbytes '\r' (by decide)).2 hc)).1 rfl
    · rintro rfl
      exact (h.line _ ((hbytes '\n' (by decide)).2 hc)).2 rfl
    · rintro rfl
      exact h.user_ne rfl
    · rintro rfl
      exact h.password_ne rfl
  · rintro ⟨huser, hline, user', password', heq, huser', hne, hne'⟩
    -- The first colon is where it is.
    have hsame : splitFirst ':' (user ++ ':' :: password) = splitFirst ':' (user' ++ ':' :: password') := by
      rw [heq]
    rw [splitFirst_eq_some.2 ⟨rfl, huser⟩, splitFirst_eq_some.2 ⟨rfl, huser'⟩] at hsame
    obtain ⟨rfl, rfl⟩ := Prod.mk.inj (Option.some.inj hsame)
    refine ⟨by simpa using hne, by simpa using hne', fun hmem => huser (hcolon.1 hmem), ?_⟩
    intro b hb
    constructor
    · rintro rfl
      exact (hline _ ((hbytes '\r' (by decide)).1 hb)).1 rfl
    · rintro rfl
      exact (hline _ ((hbytes '\n' (by decide)).1 hb)).2 rfl

/-- The server reads the text of a line with one of its endings. -/
theorem readCredentials_utf8 {content : List Char} {u p : GoString} :
    readCredentials (.ok (utf8 content)) = .ok (u, p) ↔
      ∃ user password, utf8 user = u ∧ utf8 password = p ∧ ':' ∉ user ∧
        IsCredentialText (user ++ ':' :: password) ∧
        ∃ ending ∈ serverTextEndings, content = user ++ ':' :: password ++ ending := by
  have hendings : serverEndings = serverTextEndings.map utf8 := by decide +kernel
  have hascii : ∀ e ∈ serverTextEndings, ∀ c ∈ e, c.toNat < 128 := by simp [serverTextEndings]
  rw [readCredentials_eq_ok, hendings]
  constructor
  · rintro ⟨h, ending, hending, hcontent⟩
    obtain ⟨e, he, rfl⟩ := List.mem_map.1 hending
    rw [credentialLine, List.append_assoc, List.cons_append] at hcontent
    obtain ⟨user, y, rfl, rfl, hy⟩ := utf8_eq_append_cons (c := ':') (by decide) hcontent
    obtain ⟨password, rfl, rfl⟩ := utf8_eq_append (hascii e he) hy
    obtain ⟨hcolon, hline⟩ := isCredentials_utf8.1 h
    exact ⟨user, password, rfl, rfl, hcolon, hline, e, he, by simp⟩
  · rintro ⟨user, password, rfl, rfl, hcolon, hline, e, he, rfl⟩
    refine ⟨isCredentials_utf8.2 ⟨hcolon, hline⟩, utf8 e, List.mem_map_of_mem he, ?_⟩
    rw [credentialLine_utf8, utf8_append]

/-! ## Agreement -/

/-- The readers agree on a file. -/
structure ReadersAgree (content : List Char) : Prop where
  /-- The manager accepts it exactly when the server does, -/
  accept : ∀ token, (∃ written, ensureCredentials (.file content) token = .ok written) ↔
    ∃ u p, readCredentials (.ok (utf8 content)) = .ok (u, p)
  /-- the key has the credentials of the server, -/
  key : ∀ u p, readCredentials (.ok (utf8 content)) = .ok (u, p) →
    ∃ username password, exportedCredentials content = some (username, password) ∧
      utf8 username = u ∧ utf8 password = p
  /-- and the health check sends them. -/
  health : ∀ u p, readCredentials (.ok (utf8 content)) = .ok (u, p) →
    utf8 (healthcheckCredentials content) = credentialLine u p

/-- A file without the endings that only one side takes off, and with no white space
around its line. -/
structure IsPlainFile (content : List Char) : Prop where
  ending : ∀ line, IsCredentialText line →
    content ≠ line ++ ['\r'] ∧ content ≠ line ++ ['\n', '\r', '\n']
  stripped : ∀ line, IsCredentialText line →
    content ∈ [line, line ++ ['\n'], line ++ ['\r', '\n']] → IsStripped line

/-- A line and its ending are told apart by the line ends. -/
theorem line_unique {line line' ending ending' : List Char}
    (h : ∀ c ∈ line, c ≠ '\r' ∧ c ≠ '\n') (h' : ∀ c ∈ line', c ≠ '\r' ∧ c ≠ '\n')
    (he : ∀ c ∈ ending, c = '\r' ∨ c = '\n') (he' : ∀ c ∈ ending', c = '\r' ∨ c = '\n')
    (heq : line ++ ending = line' ++ ending') : line = line' ∧ ending = ending' := by
  have htake : ∀ l e : List Char, (∀ c ∈ l, c ≠ '\r' ∧ c ≠ '\n') → (∀ c ∈ e, c = '\r' ∨ c = '\n') →
      (l ++ e).takeWhile (fun c => c != '\r' && c != '\n') = l := by
    intro l e hl hend
    rw [List.takeWhile_append_of_pos fun c hc => by simpa using hl c hc]
    cases e with
    | nil => simp
    | cons c e =>
        have hc : ¬ (c != '\r' && c != '\n') = true := by
          rcases hend c (by simp) with rfl | rfl <;> decide
        rw [List.takeWhile_cons_of_neg (p := fun c => c != '\r' && c != '\n') hc, List.append_nil]
  obtain rfl : line = line' := by rw [← htake line ending h he, heq, htake line' ending' h' he']
  exact ⟨rfl, List.append_cancel_left heq⟩

theorem lineEndings_chars : ∀ e ∈ lineEndings, ∀ c ∈ e, c = '\r' ∨ c = '\n' := by
  simp [lineEndings]

theorem serverTextEndings_chars : ∀ e ∈ serverTextEndings, ∀ c ∈ e, c = '\r' ∨ c = '\n' := by
  simp [serverTextEndings]

/-- A line with one of the endings that both sides know reads, stripped, as the
stripped line. -/
theorem strip_universalNewlines {line ending : List Char} (h : ∀ c ∈ line, c ≠ '\r' ∧ c ≠ '\n')
    (he : ending ∈ lineEndings) : strip (universalNewlines (line ++ ending)) = strip line := by
  rcases universalNewlines_line h he with hread | hread
  · rw [hread]
  · rw [hread, strip_newline]

/-- In a plain file both sides know the ending, and the line is stripped. -/
theorem IsPlainFile.endings {line ending : List Char} (h : IsPlainFile (line ++ ending))
    (hline : IsCredentialText line) (he : ending ∈ lineEndings ∨ ending ∈ serverTextEndings) :
    ending ∈ lineEndings ∧ ending ∈ serverTextEndings ∧ IsStripped line := by
  obtain ⟨hcr, hlf⟩ := h.ending line hline
  simp only [ne_eq, List.append_cancel_left_eq] at hcr hlf
  have hboth : ending = [] ∨ ending = ['\n'] ∨ ending = ['\r', '\n'] := by
    simp only [lineEndings, serverTextEndings, List.mem_cons, List.not_mem_nil, or_false] at he
    tauto
  refine ⟨?_, ?_, h.stripped line hline ?_⟩
  · rcases hboth with rfl | rfl | rfl <;> simp [lineEndings]
  · rcases hboth with rfl | rfl | rfl <;> simp [serverTextEndings]
  · rcases hboth with rfl | rfl | rfl <;> simp

/-- The four readers agree on plain files, and on no others. -/
theorem readers_agree_iff (content : List Char) :
    ReadersAgree content ↔ IsPlainFile content := by
  constructor
  · intro h
    constructor
    · intro line hline
      obtain ⟨user, password, hparts, hcolon, -, -⟩ := hline.parts
      constructor
      · -- Only the manager takes off a lone CR.
        rintro rfl
        obtain ⟨u, p, hgo⟩ := (h.accept []).1 (ensureCredentials_file.2
          ⟨line, hline, ['\r'], by simp [lineEndings], rfl⟩)
        obtain ⟨user', password', -, -, -, hline', e, he, heq⟩ := readCredentials_utf8.1 hgo
        obtain ⟨-, rfl⟩ := line_unique hline.oneLine hline'.oneLine (by simp)
          (serverTextEndings_chars e he) heq
        exact absurd he (by decide)
      · -- Only the server takes off LF CRLF.
        rintro rfl
        have hgo := readCredentials_utf8.2 ⟨user, password, rfl, rfl, hcolon, hparts ▸ hline,
          ['\n', '\r', '\n'], by simp [serverTextEndings], rfl⟩
        rw [← hparts] at hgo
        obtain ⟨line', hline', e, he, heq⟩ := ensureCredentials_file.1 ((h.accept []).2 ⟨_, _, hgo⟩)
        obtain ⟨-, rfl⟩ := line_unique hline.oneLine hline'.oneLine (by simp)
          (lineEndings_chars e he) heq
        exact absurd he (by decide)
    · intro line hline hmem
      obtain ⟨user, password, hparts, hcolon, -, -⟩ := hline.parts
      obtain ⟨e, heline, heserver, rfl⟩ : ∃ e ∈ lineEndings, e ∈ serverTextEndings ∧
          content = line ++ e := by
        simp only [List.mem_cons, List.not_mem_nil, or_false] at hmem
        rcases hmem with rfl | rfl | rfl
        · exact ⟨[], by simp [lineEndings], by simp [serverTextEndings], by simp⟩
        · exact ⟨['\n'], by simp [lineEndings], by simp [serverTextEndings], rfl⟩
        · exact ⟨['\r', '\n'], by simp [lineEndings], by simp [serverTextEndings], rfl⟩
      have hgo := readCredentials_utf8.2 ⟨user, password, rfl, rfl, hcolon, hparts ▸ hline, e,
        heserver, rfl⟩
      rw [← hparts] at hgo
      have hhealth := h.health _ _ hgo
      rw [healthcheckCredentials, strip_universalNewlines hline.oneLine heline, credentialLine_utf8,
        ← hparts] at hhealth
      exact strip_eq_self.1 (utf8_injective hhealth)
  · intro h
    -- What the server reads is a stripped line with an ending that both know.
    have hread : ∀ u p, readCredentials (.ok (utf8 content)) = .ok (u, p) →
        ∃ user password, utf8 user = u ∧ utf8 password = p ∧ ':' ∉ user ∧
          strip (universalNewlines content) = user ++ ':' :: password := by
      intro u p hgo
      obtain ⟨user, password, rfl, rfl, hcolon, hline, e, he, rfl⟩ := readCredentials_utf8.1 hgo
      obtain ⟨heline, -, hstripped⟩ := h.endings hline (Or.inr he)
      refine ⟨user, password, rfl, rfl, hcolon, ?_⟩
      rw [strip_universalNewlines hline.oneLine heline, strip_eq_self.2 hstripped]
    refine ⟨fun token => ⟨fun hok => ?_, fun ⟨u, p, hgo⟩ => ?_⟩, fun u p hgo => ?_, fun u p hgo => ?_⟩
    · obtain ⟨line, hline, e, he, rfl⟩ := ensureCredentials_file.1 hok
      obtain ⟨user, password, hparts, hcolon, -, -⟩ := hline.parts
      obtain ⟨-, heserver, -⟩ := h.endings hline (Or.inl he)
      exact ⟨_, _, readCredentials_utf8.2 ⟨user, password, rfl, rfl, hcolon, hparts ▸ hline, e,
        heserver, by rw [hparts]⟩⟩
    · obtain ⟨user, password, -, -, -, hline, e, he, rfl⟩ := readCredentials_utf8.1 hgo
      obtain ⟨heline, -, -⟩ := h.endings hline (Or.inr he)
      exact ensureCredentials_file.2 ⟨_, hline, e, heline, rfl⟩
    · obtain ⟨user, password, hu, hp, hcolon, hstrip⟩ := hread u p hgo
      refine ⟨user, password, ?_, hu, hp⟩
      rw [exportedCredentials, hstrip]
      exact splitFirst_eq_some.2 ⟨rfl, hcolon⟩
    · obtain ⟨user, password, rfl, rfl, -, hstrip⟩ := hread u p hgo
      rw [healthcheckCredentials, hstrip, credentialLine_utf8]

/-- A lone CR ends the line for the manager and is refused by the server. -/
theorem readers_agree_fails : ¬ ∀ content, ReadersAgree content := by
  intro h
  obtain ⟨u, p, hgo⟩ := ((h "user:secret\r".toList).accept []).1 ⟨none, by decide +kernel⟩
  have herror : readCredentials (.ok (utf8 "user:secret\r".toList)) =
      .error "invalid credentials file" := by decide +kernel
  rw [herror] at hgo
  cases hgo

end BrowserVpn
