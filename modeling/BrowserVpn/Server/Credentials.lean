import BrowserVpn.Server.Strings

/-!
# Server.Credentials — the credentials file as the server reads it

`readCredentials` takes one line of the form `user:password`. Its two trims come
one after the other, so that the line may end in LF, in CRLF, or in LF CRLF.
-/

namespace BrowserVpn

/-- `user:password`. -/
def credentialLine (user password : GoString) : GoString := user ++ colon :: password

/-- `readCredentials` on what `os.ReadFile` returned. -/
def readCredentials (file : Except String GoString) : Except String (GoString × GoString) :=
  match file with
  | .error err => .error ("read credentials: " ++ err)
  | .ok data =>
      let value := trimSuffix (trimSuffix data (go "\r\n")) (go "\n")
      match cut value colon with
      | none => .error "invalid credentials file"
      | some (user, password) =>
          if user.isEmpty || password.isEmpty || containsAny value (go "\r\n") then
            .error "invalid credentials file"
          else .ok (user, password)

/-- The two halves of a line of credentials. -/
structure IsCredentials (user password : GoString) : Prop where
  user_ne : user ≠ []
  password_ne : password ≠ []
  colon_notMem : colon ∉ user
  line : ∀ b ∈ credentialLine user password, b ≠ 13 ∧ b ≠ 10

/-- What the server drops from the end of a line. -/
def serverEndings : List GoString := [[], [10], [13, 10], [10, 13, 10]]

/-- A line without line ends is left alone by both trims, which take what follows
it. -/
theorem trims_line {line : GoString} (h : ∀ b ∈ line, b ≠ 13 ∧ b ≠ 10) {ending : GoString}
    (he : ending ∈ serverEndings) :
    trimSuffix (trimSuffix (line ++ ending) (go "\r\n")) (go "\n") = line := by
  have hcrlf : go "\r\n" = [13] ++ [10] := rfl
  have hlf : go "\n" = [10] := rfl
  have hcut : ∀ b t, line = t ++ [b] → b ≠ 13 ∧ b ≠ 10 := fun b t ht => h b (by simp [ht])
  have hkeep : trimSuffix line (go "\n") = line := by
    refine trimSuffix_of_not ?_
    rintro ⟨t, ht⟩
    exact (hcut 10 t ht.symm).2 rfl
  simp only [serverEndings, List.mem_cons, List.not_mem_nil, or_false] at he
  rcases he with rfl | rfl | rfl | rfl
  · have hcr : trimSuffix line (go "\r\n") = line := by
      refine trimSuffix_of_not ?_
      rintro ⟨t, ht⟩
      exact (hcut 10 (t ++ [13]) (by rw [← ht, hcrlf, List.append_assoc])).2 rfl
    rw [List.append_nil, hcr, hkeep]
  · have hcr : trimSuffix (line ++ [10]) (go "\r\n") = line ++ [10] := by
      refine trimSuffix_of_not ?_
      rintro ⟨t, ht⟩
      rw [hcrlf, ← List.append_assoc] at ht
      exact (hcut 13 t (List.append_inj_left' ht rfl).symm).1 rfl
    rw [hcr, hlf, trimSuffix_append]
  · have hcr : trimSuffix (line ++ [13, 10]) (go "\r\n") = line := trimSuffix_append line [13, 10]
    rw [hcr, hkeep]
  · have hcr : trimSuffix (line ++ [10, 13, 10]) (go "\r\n") = line ++ [10] := by
      have happ := trimSuffix_append (line ++ [10]) [13, 10]
      rw [List.append_assoc] at happ
      exact happ
    rw [hcr, hlf, trimSuffix_append]

/-- What the trims leave was followed by one of the endings. -/
theorem eq_trims_append (data : GoString) :
    ∃ ending ∈ serverEndings,
      data = trimSuffix (trimSuffix data (go "\r\n")) (go "\n") ++ ending := by
  have hcrlf : go "\r\n" = [13, 10] := rfl
  have hlf : go "\n" = [10] := rfl
  have hfirst : ∃ e ∈ [[], [13, 10]], data = trimSuffix data (go "\r\n") ++ e := by
    rcases trimSuffix_cases data (go "\r\n") with h | ⟨-, h⟩
    · exact ⟨[13, 10], by simp, h⟩
    · exact ⟨[], by simp, by rw [h, List.append_nil]⟩
  obtain ⟨e, he, hdata⟩ := hfirst
  have hsecond : ∃ f ∈ [[], [10]], trimSuffix data (go "\r\n") =
      trimSuffix (trimSuffix data (go "\r\n")) (go "\n") ++ f := by
    rcases trimSuffix_cases (trimSuffix data (go "\r\n")) (go "\n") with h | ⟨-, h⟩
    · exact ⟨[10], by simp, h⟩
    · exact ⟨[], by simp, by rw [h, List.append_nil]⟩
  obtain ⟨f, hf, htrim⟩ := hsecond
  refine ⟨f ++ e, ?_, ?_⟩
  · simp only [List.mem_cons, List.not_mem_nil, or_false] at he hf
    rcases he with rfl | rfl <;> rcases hf with rfl | rfl <;> simp [serverEndings]
  · rw [← List.append_assoc, ← htrim]
    exact hdata

/-- The server reads a line of credentials with one of four endings, and nothing
else. -/
theorem readCredentials_eq_ok {data user password : GoString} :
    readCredentials (.ok data) = .ok (user, password) ↔
      IsCredentials user password ∧
        ∃ ending ∈ serverEndings, data = credentialLine user password ++ ending := by
  constructor
  · intro h
    obtain ⟨ending, hending, hdata⟩ := eq_trims_append data
    simp only [readCredentials] at h
    split at h
    · cases h
    rename_i u p hcut
    split at h
    · cases h
    rename_i hok
    obtain ⟨rfl, rfl⟩ := Prod.mk.inj (Except.ok.inj h)
    obtain ⟨hvalue, hcolon⟩ := cut_eq_some.1 hcut
    simp only [Bool.or_eq_true, not_or, Bool.not_eq_true, List.isEmpty_eq_false_iff,
      containsAny_eq_false] at hok
    refine ⟨⟨hok.1.1, hok.1.2, hcolon, fun b hb => ?_⟩, ending, hending, ?_⟩
    · have hb := hok.2 b (by rw [hvalue]; exact hb)
      have hcrlf : go "\r\n" = [13, 10] := rfl
      simpa [hcrlf] using hb
    · rw [hvalue] at hdata
      exact hdata
  · rintro ⟨h, ending, hending, rfl⟩
    have hcut : cut (credentialLine user password) colon = some (user, password) :=
      cut_eq_some.2 ⟨rfl, h.colon_notMem⟩
    have hclean : containsAny (credentialLine user password) (go "\r\n") = false := by
      have hcrlf : go "\r\n" = [13, 10] := rfl
      rw [containsAny_eq_false]
      intro b hb
      simpa [hcrlf] using h.line b hb
    simp only [readCredentials, trims_line h.line hending, hcut, hclean]
    simp [h.user_ne, h.password_ne]

/-! ## One line -/

/-- The endings of a line: nothing, LF or CRLF. -/
def singleEndings : List GoString := [[], [10], [13, 10]]

/-- The file is one line of these credentials. -/
def IsCredentialsFile (data user password : GoString) : Prop :=
  IsCredentials user password ∧ ∃ ending ∈ singleEndings, data = credentialLine user password ++ ending

/-- What ends a line is a part of what the trims drop. -/
theorem IsCredentialsFile.read {data user password : GoString}
    (h : IsCredentialsFile data user password) :
    readCredentials (.ok data) = .ok (user, password) := by
  obtain ⟨hcredentials, ending, hending, hdata⟩ := h
  refine readCredentials_eq_ok.2 ⟨hcredentials, ending, ?_, hdata⟩
  simp only [singleEndings, List.mem_cons, List.not_mem_nil, or_false] at hending
  rcases hending with rfl | rfl | rfl <;> simp [serverEndings]

/-- A line that ends in LF CRLF is no line with one ending: a CR that is left in
front of the last LF would belong to the password. -/
theorem not_isCredentialsFile {user password u p : GoString} :
    ¬ IsCredentialsFile (credentialLine user password ++ [10, 13, 10]) u p := by
  rintro ⟨h, ending, hending, hdata⟩
  have hmem : (10 : UInt8) ∈ credentialLine u p := by
    -- the ending takes up at most the last two bytes, and the first LF comes before them
    simp only [singleEndings, List.mem_cons, List.not_mem_nil, or_false] at hending
    rcases hending with rfl | rfl | rfl
    · rw [List.append_nil] at hdata
      rw [← hdata]
      simp
    · have hfront : credentialLine user password ++ [10, 13] = credentialLine u p := by
        apply (List.append_left_inj [10]).1
        rw [← hdata, List.append_assoc]
        rfl
      rw [← hfront]
      simp
    · have hfront : credentialLine user password ++ [10] = credentialLine u p := by
        apply (List.append_left_inj [13, 10]).1
        rw [← hdata, List.append_assoc]
        rfl
      rw [← hfront]
      simp
  exact (h.line 10 hmem).2 rfl

/-- The server takes one line of credentials and nothing else from every file but
those that end in LF CRLF after such a line. -/
theorem readCredentials_exact_iff (data : GoString) :
    (∀ user password, readCredentials (.ok data) = .ok (user, password) ↔
      IsCredentialsFile data user password) ↔
    ¬ ∃ user password, IsCredentials user password ∧
      data = credentialLine user password ++ [10, 13, 10] := by
  constructor
  · rintro hexact ⟨user, password, h, rfl⟩
    have hread : readCredentials (.ok (credentialLine user password ++ [10, 13, 10])) =
        .ok (user, password) :=
      readCredentials_eq_ok.2 ⟨h, [10, 13, 10], by simp [serverEndings], rfl⟩
    exact not_isCredentialsFile ((hexact user password).1 hread)
  · intro hnone user password
    refine ⟨fun h => ?_, IsCredentialsFile.read⟩
    obtain ⟨hcredentials, ending, hending, hdata⟩ := readCredentials_eq_ok.1 h
    refine ⟨hcredentials, ending, ?_, hdata⟩
    simp only [serverEndings, List.mem_cons, List.not_mem_nil, or_false] at hending
    rcases hending with rfl | rfl | rfl | rfl
    · simp [singleEndings]
    · simp [singleEndings]
    · simp [singleEndings]
    · exact absurd ⟨user, password, hcredentials, hdata⟩ hnone

/-- The LF and the CRLF of `u:p` are both dropped. -/
theorem readCredentials_two_endings :
    ¬ ∀ data user password, readCredentials (.ok data) = .ok (user, password) ↔
      IsCredentialsFile data user password := by
  intro h
  have hread : readCredentials (.ok (go "u:p\n\r\n")) = .ok (go "u", go "p") := by decide +kernel
  have hfile := (h (go "u:p\n\r\n") (go "u") (go "p")).1 hread
  have hdata : go "u:p\n\r\n" = credentialLine (go "u") (go "p") ++ [10, 13, 10] := by
    decide +kernel
  rw [hdata] at hfile
  exact not_isCredentialsFile hfile

end BrowserVpn
