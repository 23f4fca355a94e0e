import PageTree.Session
import PageTree.Proofs.Base64
import PageTree.Proofs.Text.Cut
import PageTree.Proofs.Utf8.RoundTrip

/-!
# What the header field tells of credentials

The header field that says who asks is `Basic` and a text in base 64, which spells the UTF-8 form of the user
name, a colon and the password. All of it can be read back, so the field is the same for two users and
passwords just if they are the same with the colon between them. A user name that holds no colon can be told
from the password, since it ends at the first one (`basicAuthorization_tells_credentials`).
-/

set_option autoImplicit false

namespace PageTree

/-- A user name and a password with a colon between them. -/
def credentialsText (userName password : Text) : Text := userName ++ text ":" ++ password

/-- A user name without a colon ends at the first one. -/
theorem cut_credentialsText {userName : Text} (h : CodePoint.ofChar ':' ∉ userName) (password : Text) :
    Text.cut ':' (credentialsText userName password) = (userName, some password) := by
  have hsplit : credentialsText userName password = userName ++ CodePoint.ofChar ':' :: password := by
    simp [credentialsText, text]
  rw [hsplit]
  exact Text.cut_of_split h password

/-- The header field of credentials, by the bytes that it spells. -/
theorem basicAuthorization?_eq_some {userName password value : Text} :
    basicAuthorization? userName password = some value ↔
      ∃ b, Utf8.encode? (credentialsText userName password) = some b ∧
        text "Basic " ++ Base64.encode b = value :=
  Option.map_eq_some_iff

/-- Credentials that have the same header field are the same with the colon between them. -/
theorem credentialsText_eq_of_basicAuthorization? {userName password userName' password' value : Text}
    (h : basicAuthorization? userName password = some value)
    (h' : basicAuthorization? userName' password' = some value) :
    credentialsText userName' password' = credentialsText userName password := by
  obtain ⟨b, hbytes, hvalue⟩ := basicAuthorization?_eq_some.mp h
  obtain ⟨b', hbytes', hvalue'⟩ := basicAuthorization?_eq_some.mp h'
  have hdigits : Base64.encode b' = Base64.encode b := List.append_cancel_left (hvalue'.trans hvalue.symm)
  have hsame : b' = b := by
    have hread := Base64.decode?_encode b'
    rw [hdigits, Base64.decode?_encode] at hread
    exact (Option.some.inj hread).symm
  have hread := Utf8.decode?_encode? hbytes'
  rw [hsame, Utf8.decode?_encode? hbytes] at hread
  exact (Option.some.inj hread).symm

/-- The header field of a user name and a password that have a UTF-8 form is `Basic` and a text in base 64,
and what the text spells, read as UTF-8, is the user name, a colon and the password. Others have the same
field just if they are the same with the colon between them. If the user name holds no colon, it can be told
from the password, and of all user names without a colon only this one, with this password, has the field. -/
theorem basicAuthorization_tells_credentials {userName password : Text}
    (huser : userName.hasSurrogate = false) (hpassword : password.hasSurrogate = false) :
    (∃ t b, basicAuthorization? userName password = some (text "Basic " ++ t) ∧ Base64.Spells t b ∧
      Base64.decode? t = some b ∧ Utf8.decode? b = some (credentialsText userName password)) ∧
    (∀ userName' password',
      basicAuthorization? userName' password' = basicAuthorization? userName password ↔
        credentialsText userName' password' = credentialsText userName password) ∧
    (CodePoint.ofChar ':' ∉ userName →
      Text.cut ':' (credentialsText userName password) = (userName, some password) ∧
      ∀ userName' password', CodePoint.ofChar ':' ∉ userName' →
        basicAuthorization? userName' password' = basicAuthorization? userName password →
          userName' = userName ∧ password' = password) := by
  have hplain : (credentialsText userName password).hasSurrogate = false := by
    rw [credentialsText, Text.hasSurrogate_append, Text.hasSurrogate_append, huser, hpassword,
      Text.hasSurrogate_text]
    rfl
  obtain ⟨b, hbytes⟩ : ∃ b, Utf8.encode? (credentialsText userName password) = some b := by
    simp [Utf8.encode?, hplain]
  have hvalue : basicAuthorization? userName password = some (text "Basic " ++ Base64.encode b) :=
    basicAuthorization?_eq_some.mpr ⟨b, hbytes, rfl⟩
  have hsame (userName' password' : Text)
      (h : basicAuthorization? userName' password' = basicAuthorization? userName password) :
      credentialsText userName' password' = credentialsText userName password :=
    credentialsText_eq_of_basicAuthorization? hvalue (h.trans hvalue)
  refine ⟨⟨_, b, hvalue, Base64.spells_encode b, Base64.decode?_encode b, Utf8.decode?_encode? hbytes⟩,
    fun userName' password' => ⟨hsame userName' password', fun h => ?_⟩, fun hcolon => ⟨?_, ?_⟩⟩
  · exact congrArg (fun t => (Utf8.encode? t).map fun b => text "Basic " ++ Base64.encode b) h
  · exact cut_credentialsText hcolon password
  · intro userName' password' hcolon' h
    have hcut := cut_credentialsText hcolon' password'
    rw [hsame userName' password' h, cut_credentialsText hcolon password] at hcut
    simp only [Prod.mk.injEq, Option.some.injEq] at hcut
    exact ⟨hcut.1.symm, hcut.2.symm⟩

/-- A user name with a letter of two bytes, and a password with colons. -/
theorem basicAuthorization_of_zoe :
    (text "zoë").hasSurrogate = false ∧ (text "k:ey:").hasSurrogate = false ∧
    CodePoint.ofChar ':' ∉ text "zoë" ∧
    basicAuthorization? (text "zoë") (text "k:ey:") = some (text "Basic em/DqzprOmV5Og==") ∧
    ∀ userName' password', CodePoint.ofChar ':' ∉ userName' →
      basicAuthorization? userName' password' = basicAuthorization? (text "zoë") (text "k:ey:") →
        userName' = text "zoë" ∧ password' = text "k:ey:" := by
  have huser : (text "zoë").hasSurrogate = false := by decide
  have hpassword : (text "k:ey:").hasSurrogate = false := by decide
  have hcolon : CodePoint.ofChar ':' ∉ text "zoë" := by decide
  obtain ⟨-, -, hpair⟩ := basicAuthorization_tells_credentials huser hpassword
  exact ⟨huser, hpassword, hcolon, by decide +kernel, (hpair hcolon).2⟩

end PageTree
