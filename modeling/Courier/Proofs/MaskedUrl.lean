import Courier.Config.Fault
import Mathlib.Data.List.DropRight
import Mathlib.Tactic.Common

/-!
The database URL as logs show it. It hides what lies between its first at sign and the last colon
before that. Main rule: of a password so much is shown as goes up to its last colon, and nothing
else. So passwords without a colon all look alike, and two passwords look different exactly if they
differ in what is shown.
-/

namespace Courier.Config

/-- The URL with which a user logs in to a database by password. -/
def loginUrl (scheme user password host : String) : String :=
  scheme ++ "://" ++ user ++ ":" ++ password ++ "@" ++ host

/-- A configuration with such a URL, as logs show it. -/
def maskedLogin (c : Config) (scheme user password host : String) : String :=
  maskedDatabaseUrl { c with databaseUrl := loginUrl scheme user password host }

/-- What there is of a password up to its last colon. -/
def shownOf (password : String) : List Char := password.toList.rdropWhile (· != ':')

theorem shownOf_eq_nil_iff {password : String} :
    shownOf password = [] ↔ ':' ∉ password.toList := by
  rw [shownOf, List.rdropWhile_eq_nil_iff]
  constructor
  · intro h hcolon
    simpa using h ':' hcolon
  · intro h c hc
    simpa using fun heq : c = ':' => h (heq ▸ hc)

/-- What is dropped from the end never reaches beyond something that is to be kept. -/
theorem rdropWhile_append_cons {α : Type} {p : α → Bool} {x : α} (hx : p x = false)
    (before after : List α) :
    (before ++ x :: after).rdropWhile p = before ++ x :: after.rdropWhile p := by
  have hreverse : (before ++ x :: after).reverse = after.reverse ++ x :: before.reverse := by simp
  have hkept : (x :: before.reverse).dropWhile p = x :: before.reverse :=
    List.dropWhile_cons_of_neg (by simp [hx])
  rw [List.rdropWhile, List.rdropWhile, hreverse, List.dropWhile_append, hkept]
  split
  · next hempty => simp [List.isEmpty_iff.mp hempty]
  · simp

/-- The masked URL, character by character. -/
theorem maskedLogin_eq (c : Config) {scheme user password : String}
    (hscheme : '@' ∉ scheme.toList) (huser : '@' ∉ user.toList) (hpassword : '@' ∉ password.toList)
    (host : String) :
    c.maskedLogin scheme user password host = String.ofList (scheme.toList ++ "://".toList ++
      user.toList ++ ':' :: shownOf password ++ ("***@".toList ++ host.toList)) := by
  let front := scheme.toList ++ "://".toList ++ user.toList
  have hfront : ∀ x ∈ front ++ ':' :: password.toList, (x != '@') = true := by
    intro x hx
    rw [bne_iff_ne]
    rintro rfl
    simp only [front, List.mem_append, List.mem_cons] at hx
    rcases hx with ((hx | hx) | hx) | hx | hx
    · exact hscheme hx
    · exact absurd hx (by decide)
    · exact huser hx
    · exact absurd hx (by decide)
    · exact hpassword hx
  have hurl : (loginUrl scheme user password host).toList =
      front ++ ':' :: password.toList ++ '@' :: host.toList := by
    simp [loginUrl, front, String.toList_append]
  have hbefore : (loginUrl scheme user password host).toList.takeWhile (· != '@') =
      front ++ ':' :: password.toList := by
    rw [hurl, List.takeWhile_append_of_pos hfront, List.takeWhile_cons_of_neg (by simp),
      List.append_nil]
  have hshown : ((front ++ ':' :: password.toList).reverse.dropWhile (· != ':')).reverse =
      front ++ ':' :: shownOf password :=
    rdropWhile_append_cons (p := (· != ':')) rfl front password.toList
  have hhidden : (front ++ ':' :: password.toList).length <
        (loginUrl scheme user password host).toList.length ∧
      (front ++ ':' :: password.toList).contains ':' = true := by
    rw [hurl]
    simp
  unfold maskedLogin maskedDatabaseUrl
  dsimp only
  rw [hbefore, if_pos hhidden, hshown, hurl, List.drop_left]
  simp [front]

/-- Two passwords are shown alike exactly if they are the same up to their last colons. -/
theorem maskedLogin_eq_iff (c : Config) {scheme user password password' : String}
    (hscheme : '@' ∉ scheme.toList) (huser : '@' ∉ user.toList) (hpassword : '@' ∉ password.toList)
    (hpassword' : '@' ∉ password'.toList) (host : String) :
    c.maskedLogin scheme user password host = c.maskedLogin scheme user password' host ↔
      shownOf password = shownOf password' := by
  rw [c.maskedLogin_eq hscheme huser hpassword, c.maskedLogin_eq hscheme huser hpassword',
    String.ofList_inj, List.append_cancel_right_eq, List.append_cancel_left_eq, List.cons_inj_right]

/-- Let no at sign stand before the one that ends the login. Then `***` is shown for the password
exactly if that has no colon, and two passwords are shown alike exactly if they are the same up to
their last colons. -/
theorem maskedLogin_hides_iff (c : Config) {scheme user password password' : String}
    (hscheme : '@' ∉ scheme.toList) (huser : '@' ∉ user.toList) (hpassword : '@' ∉ password.toList)
    (hpassword' : '@' ∉ password'.toList) (host : String) :
    (c.maskedLogin scheme user password host = loginUrl scheme user "***" host ↔
        ':' ∉ password.toList) ∧
      (c.maskedLogin scheme user password host = c.maskedLogin scheme user password' host ↔
        shownOf password = shownOf password') := by
  have hstars : '@' ∉ "***".toList := by decide
  have hplain : c.maskedLogin scheme user "***" host = loginUrl scheme user "***" host := by
    have hnothing : shownOf "***" = [] := by decide
    rw [c.maskedLogin_eq hscheme huser hstars, hnothing, ← String.toList_inj, String.toList_ofList]
    simp [loginUrl, String.toList_append]
  refine ⟨?_, c.maskedLogin_eq_iff hscheme huser hpassword hpassword' host⟩
  rw [← hplain, c.maskedLogin_eq_iff hscheme huser hpassword hstars, ← shownOf_eq_nil_iff]
  rfl

/-- A password with a colon in it is not hidden, but what comes after the colon makes no
difference. -/
theorem maskedLogin_hides_iff_colon :
    '@' ∉ "postgresql".toList ∧ '@' ∉ "user".toList ∧ '@' ∉ "a:b".toList ∧ '@' ∉ "a:c".toList ∧
      standard.maskedLogin "postgresql" "user" "a:b" "host/db" ≠
        loginUrl "postgresql" "user" "***" "host/db" ∧
      standard.maskedLogin "postgresql" "user" "a:b" "host/db" =
        standard.maskedLogin "postgresql" "user" "a:c" "host/db" := by
  have hscheme : '@' ∉ "postgresql".toList := by decide
  have huser : '@' ∉ "user".toList := by decide
  have hpassword : '@' ∉ "a:b".toList := by decide
  have hpassword' : '@' ∉ "a:c".toList := by decide
  obtain ⟨hhides, halike⟩ :=
    standard.maskedLogin_hides_iff hscheme huser hpassword hpassword' "host/db"
  exact ⟨hscheme, huser, hpassword, hpassword', fun h => hhides.mp h (by decide),
    halike.mpr (by decide)⟩

/-- With two passwords of the same form, each with a colon in it, a configuration that the service
starts with is shown in two ways. -/
theorem maskedLogin_shows_password :
    ({ standard with databaseUrl := loginUrl "postgresql" "user" "a:b" "host/db" }).fault? = none ∧
      standard.maskedLogin "postgresql" "user" "a:b" "host/db" =
        "postgresql://user:a:***@host/db" ∧
      standard.maskedLogin "postgresql" "user" "c:b" "host/db" =
        "postgresql://user:c:***@host/db" := by
  decide +kernel

end Courier.Config
