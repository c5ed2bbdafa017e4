import CodeArena.Api.Tags
import CodeArena.Lib.Regex
import Mathlib.Data.Nat.Pairing

/-!
# Accounts

The users collection, and what `auth.validation.js` lets through to it.  `EMAIL_REGEX` is
matched as a regular expression, and comes to a text without white space that has one `@`
and a dot behind it, with something on both sides (`isEmail_iff`).

An address is stored as `normalizeEmail` leaves it: without the white space around it, in
lower case.  The validators normalize it, the services do so again, and so does the schema,
for filters as well; for an address that the validators let through this is the same as doing
it once (`LawfulAuth.normalizeEmail_idem`).

## Honest boundary

`toLowerCase`, argon2 and jsonwebtoken are parameters (`Auth`), and what is relied on of them
is `LawfulAuth`.  The unique indexes of the collection are taken to be there.
-/

namespace CodeArena.Accounts

open CodeArena.Lib CodeArena.Lib.Utf
open CodeArena.Lib.Entries (without assign)
open CodeArena.Lib.OrderedMap (find?)
open CodeArena.Engine (trim isWhitespace)
open CodeArena.Submissions (ObjectId Time JsError mongooseValidationError)
open CodeArena.Api (Role Fields badRequest required bodyFields duplicateKeyError trim_trim
  lowerUnit lettersAtoZ_lawful bind_eq_ok refuse_eq_ok required_eq_ok)

/-! ## Addresses -/

/-- `[^\s@]`. -/
def isAddressUnit (u : CodeUnit) : Bool := !isWhitespace u && u ≠ 0x40

/-- What `EMAIL_REGEX` has between its anchors: `[^\s@]+@[^\s@]+\.[^\s@]+`. -/
def address : Re CodeUnit :=
  .seq (.plus (.atom isAddressUnit)) (.seq (.atom (· = 0x40))
    (.seq (.plus (.atom isAddressUnit)) (.seq (.atom (· = 0x2E)) (.plus (.atom isAddressUnit)))))

/-- `EMAIL_REGEX`. -/
def emailRegex : Re CodeUnit := .seq .start (.seq address .stop)

/-- `EMAIL_REGEX.test(s)`; without the flag `m` a newline does not end the text. -/
def isEmail (s : JsString) : Bool := Re.search (fun _ ↦ false) emailRegex s

/-- A part of an address: it is not empty, and has neither white space nor an `@`. -/
def AddressPart (s : JsString) : Prop := s ≠ [] ∧ ∀ u ∈ s, isAddressUnit u = true

/-- **What `EMAIL_REGEX` matches.** -/
theorem isEmail_iff {s : JsString} : isEmail s = true ↔
    ∃ a b c, AddressPart a ∧ AddressPart b ∧ AddressPart c ∧
      s = a ++ 0x40 :: (b ++ 0x2E :: c) := by
  have hpart := Re.texts_plus_atom isAddressUnit
  have htexts := hpart.seq ((Re.texts_atom (· = (0x40 : CodeUnit))).seq
    (hpart.seq ((Re.texts_atom (· = (0x2E : CodeUnit))).seq hpart)))
  rw [isEmail, emailRegex, address, htexts.search_iff]
  constructor
  · intro h
    obtain ⟨a, ha, _, hrest, rfl⟩ := Language.mem_mul.mp h
    obtain ⟨_, ⟨u, hu, rfl⟩, _, hdomain, rfl⟩ := Language.mem_mul.mp hrest
    obtain ⟨b, hb, _, hdot, rfl⟩ := Language.mem_mul.mp hdomain
    obtain ⟨_, ⟨v, hv, rfl⟩, c, hc, rfl⟩ := Language.mem_mul.mp hdot
    obtain rfl := of_decide_eq_true hu
    obtain rfl := of_decide_eq_true hv
    exact ⟨a, b, c, ha, hb, hc, rfl⟩
  · rintro ⟨a, b, c, ha, hb, hc, rfl⟩
    refine Language.append_mem_mul ha (Language.append_mem_mul (a := [0x40]) ⟨_, by simp, rfl⟩ ?_)
    exact Language.append_mem_mul hb (Language.append_mem_mul (a := [0x2E]) ⟨_, by simp, rfl⟩ hc)

/-- There is no white space in an address. -/
theorem isWhitespace_of_isEmail {s : JsString} (h : isEmail s = true) :
    ∀ u ∈ s, isWhitespace u = false := by
  obtain ⟨a, b, c, ha, hb, hc, rfl⟩ := isEmail_iff.mp h
  have hunit : ∀ {u : CodeUnit}, isAddressUnit u = true → isWhitespace u = false := by
    intro u hu
    simpa using (Bool.and_eq_true_iff.mp hu).1
  intro u hu
  simp only [List.mem_append, List.mem_cons] at hu
  rcases hu with hu | rfl | hu | rfl | hu
  · exact hunit (ha.2 u hu)
  · rfl
  · exact hunit (hb.2 u hu)
  · rfl
  · exact hunit (hc.2 u hu)

theorem ne_nil_of_isEmail {s : JsString} (h : isEmail s = true) : s ≠ [] := by
  obtain ⟨a, b, c, ha, -, -, rfl⟩ := isEmail_iff.mp h
  exact List.append_ne_nil_of_left_ne_nil ha.1 _

/-- A text without white space is trimmed already. -/
theorem trim_eq_self {s : JsString} (h : ∀ u ∈ s, isWhitespace u = false) : trim s = s := by
  have hfront : s.dropWhile isWhitespace = s := by
    rw [List.dropWhile_eq_self_iff]
    intro hpos hwhite
    rw [h _ (List.getElem_mem hpos)] at hwhite
    cases hwhite
  rw [trim, hfront, Engine.trimEnd, List.rdropWhile_eq_self_iff]
  intro hne hwhite
  rw [h _ (List.getLast_mem hne)] at hwhite
  cases hwhite

/-! ## What is not in the repository -/

/-- A value as a condition. -/
def truthy : Json → Bool
  | .null => false
  | .bool b => b
  | .number n => n ≠ 0
  | .string s => s ≠ []
  | .array _ | .object _ => true

/-- What the services leave to the runtime, to argon2, to jsonwebtoken and to Mongoose. -/
structure Auth where
  /-- `toLowerCase`. -/
  toLowerCase : JsString → JsString
  /-- `argon2.hash`, under the salt that it draws. -/
  hash : Nat → JsString → JsString
  /-- `argon2.verify`. -/
  verify : JsString → JsString → Except JsError Bool
  /-- `config.jwt.secret`. -/
  secret : JsString
  /-- `config.jwt.expiresIn`, in seconds. -/
  expiresIn : Nat
  /-- `jwt.sign` under the secret, at a time. -/
  sign : Json → Time → JsString
  /-- `jwt.verify` under the secret, at a time; the error is known by its name. -/
  verifyJwt : JsString → Time → Except String Json
  /-- `_id.toString()`. -/
  idText : ObjectId → JsString
  /-- The cast of a filter on an id; `none` where it throws. -/
  castId : Json → Option ObjectId

/-- The address that is stored: `email.trim().toLowerCase()`. -/
def Auth.normalizeEmail (auth : Auth) (email : JsString) : JsString := auth.toLowerCase (trim email)

/-- The name of a role. -/
def roleName : Role → JsString
  | .user => js "USER"
  | .admin => js "ADMIN"

/-- The payload of a token: `{ sub, role }`. -/
def Auth.payload (auth : Auth) (id : ObjectId) (role : Role) : Json :=
  .object [(js "sub", .string (auth.idText id)), (js "role", .string (roleName role))]

/-- What is relied on of them. -/
structure LawfulAuth (auth : Auth) : Prop where
  lower_idem : ∀ s, auth.toLowerCase (auth.toLowerCase s) = auth.toLowerCase s
  /-- An address stays one in lower case. -/
  lower_isEmail : ∀ s, isEmail s = true → isEmail (auth.toLowerCase s) = true
  hash_ne_nil : ∀ salt password, auth.hash salt password ≠ []
  /-- A password is verified against a hash of it. -/
  verify_hash : ∀ salt password, auth.verify (auth.hash salt password) password = .ok true
  secret_ne_nil : auth.secret ≠ []
  /-- A token is no empty text, and has no space in it. -/
  sign_ne_nil : ∀ payload t, auth.sign payload t ≠ []
  sign_no_space : ∀ payload t, 0x20 ∉ auth.sign payload t
  /-- A token is good for so many seconds from the one in which it was signed, and its subject
  is read back. -/
  verify_sign : ∀ id role t now, now / 1000 < t / 1000 + auth.expiresIn →
    ∃ decoded, auth.verifyJwt (auth.sign (auth.payload id role) t) now = .ok decoded ∧
      decoded.field (js "sub") = some (.string (auth.idText id))
  /-- Then it has expired. -/
  verify_expired : ∀ id role t now, t / 1000 + auth.expiresIn ≤ now / 1000 →
    auth.verifyJwt (auth.sign (auth.payload id role) t) now = .error "TokenExpiredError"
  idText_ne_nil : ∀ id, auth.idText id ≠ []
  /-- The text of an id is cast to it. -/
  castId_idText : ∀ id, auth.castId (.string (auth.idText id)) = some id

namespace LawfulAuth

variable {auth : Auth}

/-- What a normalized address is: an address that normalizing leaves as it is. -/
theorem normalizeEmail_idem (h : LawfulAuth auth) {s : JsString} (hs : isEmail (trim s) = true) :
    auth.normalizeEmail (auth.normalizeEmail s) = auth.normalizeEmail s := by
  have hlower := h.lower_isEmail _ hs
  rw [Auth.normalizeEmail, Auth.normalizeEmail,
    trim_eq_self (isWhitespace_of_isEmail hlower), h.lower_idem]

theorem isEmail_normalizeEmail (h : LawfulAuth auth) {s : JsString}
    (hs : isEmail (trim s) = true) : isEmail (auth.normalizeEmail s) = true :=
  h.lower_isEmail _ hs

end LawfulAuth

/-! ## Parameters for examples -/

namespace Auth

/-- An id, in unary. -/
def sampleId (id : ObjectId) : JsString := List.replicate (id + 1) 0x61

/-- What such a text is cast to. -/
def sampleCast : Json → Option ObjectId
  | .string (_ :: s) => if s.all (· = 0x61) then some s.length else none
  | _ => none

/-- The number of a payload. -/
def sampleCode (payload : Json) : Nat :=
  2 * ((payload.field (js "sub")).bind sampleCast).getD 0 +
    if payload.text (js "role") = roleName .admin then 1 else 0

/-- The payload of such a number. -/
def sampleDecode (n : Nat) : Json :=
  .object [(js "sub", .string (sampleId (n / 2))),
    (js "role", .string (roleName (if n % 2 = 1 then .admin else .user)))]

/-- Parameters for examples: a hash shows the password, and a token is a number in unary. -/
def sample : Auth where
  toLowerCase := List.map lowerUnit
  hash _ password := 0x24 :: password
  verify passwordHash password := .ok (passwordHash = 0x24 :: password)
  secret := js "secret"
  expiresIn := 3600
  sign payload t := List.replicate (Nat.pair (sampleCode payload) t + 1) 0x61
  verifyJwt token now :=
    let code := Nat.unpair (token.length - 1)
    if now / 1000 < code.2 / 1000 + 3600 then .ok (sampleDecode code.1)
    else .error "TokenExpiredError"
  idText := sampleId
  castId := sampleCast

theorem sampleCast_sampleId (id : ObjectId) : sampleCast (.string (sampleId id)) = some id := by
  simp [sampleId, List.replicate_succ, sampleCast]

theorem sampleCode_payload (id : ObjectId) (role : Role) :
    sampleDecode (sampleCode (sample.payload id role)) = sample.payload id role := by
  have hsub : (sample.payload id role).field (js "sub") = some (.string (sampleId id)) := rfl
  have hrole : (sample.payload id role).text (js "role") = roleName role := by
    have hne : js "sub" ≠ js "role" := by decide +kernel
    simp [payload, Json.text, Json.field, Json.entries, find?, hne]
  rw [sampleCode, hsub, hrole, Option.bind_some, sampleCast_sampleId, Option.getD_some]
  cases role with
  | user =>
      have hne : roleName .user ≠ roleName .admin := by decide +kernel
      rw [if_neg hne, Nat.add_zero, sampleDecode, Nat.mul_div_cancel_left _ Nat.two_pos,
        Nat.mul_mod_right]
      rfl
  | admin =>
      have hhalf (n : Nat) : (2 * n + 1) / 2 = n := by omega
      have hodd (n : Nat) : (2 * n + 1) % 2 = 1 := by omega
      rw [if_pos rfl, sampleDecode, hhalf, hodd]
      rfl

/-- No letter becomes white space or an `@` in lower case. -/
theorem isAddressUnit_lowerUnit {u : CodeUnit} (h : isAddressUnit u = true) :
    isAddressUnit (lowerUnit u) = true := by
  by_cases hu : 0x41 ≤ u ∧ u ≤ 0x5A
  · obtain ⟨n, hn, rfl⟩ : ∃ n ∈ List.range 26, u = UInt16.ofNat (0x41 + n) := by
      simp only [UInt16.le_iff_toNat_le] at hu
      refine ⟨u.toNat - 0x41, List.mem_range.mpr ?_, ?_⟩
      · have h5A : (0x5A : CodeUnit).toNat = 0x5A := rfl
        omega
      · have h41 : (0x41 : CodeUnit).toNat = 0x41 := rfl
        rw [Nat.add_sub_cancel' (h41 ▸ hu.1), UInt16.ofNat_toNat]
    have hall : (List.range 26).all
        (fun n ↦ isAddressUnit (lowerUnit (UInt16.ofNat (0x41 + n)))) = true := by decide
    exact List.all_eq_true.mp hall n hn
  · rwa [lowerUnit, if_neg hu]

theorem addressPart_map {s : JsString} (h : AddressPart s) : AddressPart (s.map lowerUnit) := by
  refine ⟨by simpa using h.1, fun u hu ↦ ?_⟩
  obtain ⟨v, hv, rfl⟩ := List.mem_map.mp hu
  exact isAddressUnit_lowerUnit (h.2 v hv)

/-- What a token of the example is taken for. -/
theorem sample_verifyJwt_sign (payload : Json) (t now : Time) :
    sample.verifyJwt (sample.sign payload t) now =
      if now / 1000 < t / 1000 + 3600 then .ok (sampleDecode (sampleCode payload))
      else .error "TokenExpiredError" := by
  have hcode : Nat.unpair ((sample.sign payload t).length - 1) = (sampleCode payload, t) := by
    show Nat.unpair ((List.replicate _ _).length - 1) = _
    rw [List.length_replicate, Nat.add_sub_cancel, Nat.unpair_pair]
  show (if now / 1000 < (Nat.unpair _).2 / 1000 + 3600 then _ else _) = _
  rw [hcode]

theorem sample_lawful : LawfulAuth sample where
  lower_idem := lettersAtoZ_lawful.idempotent
  lower_isEmail s hs := by
    obtain ⟨a, b, c, ha, hb, hc, rfl⟩ := isEmail_iff.mp hs
    refine isEmail_iff.mpr ⟨_, _, _, addressPart_map ha, addressPart_map hb, addressPart_map hc, ?_⟩
    show (a ++ 0x40 :: (b ++ 0x2E :: c)).map lowerUnit = _
    rw [List.map_append, List.map_cons, List.map_append, List.map_cons]
    rfl
  hash_ne_nil _ _ := List.cons_ne_nil _ _
  verify_hash _ _ := congrArg _ (decide_eq_true rfl)
  secret_ne_nil := by decide +kernel
  sign_ne_nil _ _ := List.cons_ne_nil _ _
  sign_no_space _ _ h := by
    cases List.eq_of_mem_replicate h
  verify_sign id role t now hnow := by
    refine ⟨sample.payload id role, ?_, rfl⟩
    rw [sample_verifyJwt_sign, sampleCode_payload]
    exact if_pos hnow
  verify_expired id role t now hnow := by
    rw [sample_verifyJwt_sign]
    exact if_neg (Nat.not_lt.mpr hnow)
  idText_ne_nil _ := List.cons_ne_nil _ _
  castId_idText := sampleCast_sampleId

end Auth

/-! ## Validation -/

/-- The check of a name. -/
def aName (message : String) : Json → Except JsError JsString
  | .string s =>
    if (trim s).length < 2 ∨ 100 < (trim s).length then .error (badRequest message) else .ok s
  | _ => .error (badRequest message)

/-- The check of an address. -/
def anEmail (message : String) : Json → Except JsError JsString
  | .string s => if isEmail (trim s) then .ok s else .error (badRequest message)
  | _ => .error (badRequest message)

/-- The check of a new password. -/
def aNewPassword (message : String) : Json → Except JsError JsString
  | .string s =>
    if s.length < 8 then .error (badRequest message)
    else if 128 < s.length then .error (badRequest "Password cannot exceed 128 characters")
    else .ok s
  | _ => .error (badRequest message)

/-- The check of the password of a login. -/
def aPassword (message : String) : Json → Except JsError JsString
  | .string s => if s = [] then .error (badRequest message) else .ok s
  | _ => .error (badRequest message)

/-- The fields that `validateRegister` deletes. -/
def privilegedFields : List JsString :=
  [js "role", js "isActive", js "userId", js "id", js "_id", js "passwordHash"]

/-- `validateRegister`. -/
def validateRegister (auth : Auth) (body : Option Json) : Except JsError Fields := do
  let fields := bodyFields body
  let name ← required aName "Name is required and must be between 2 and 100 characters"
    (find? (js "name") fields)
  let email ← required anEmail "A valid email address is required" (find? (js "email") fields)
  let password ← required aNewPassword "Password is required and must be at least 8 characters long"
    (find? (js "password") fields)
  return without privilegedFields (assign
    [(js "name", some (.string (trim name))),
      (js "email", some (.string (auth.normalizeEmail email))),
      (js "password", some (.string password))] fields)

/-- `validateLogin`. -/
def validateLogin (auth : Auth) (body : Option Json) : Except JsError Fields := do
  let fields := bodyFields body
  let email ← required anEmail "A valid email address is required" (find? (js "email") fields)
  let password ← required aPassword "Password is required" (find? (js "password") fields)
  return assign
    [(js "email", some (.string (auth.normalizeEmail email))),
      (js "password", some (.string password))] fields

/-- The string under a name, where there is one. -/
def stringField (fields : Fields) (name : JsString) : Option JsString :=
  match find? name fields with
  | some (.string s) => some s
  | _ => none

/-- What `register` is called with. -/
structure UserData where
  name : JsString
  email : JsString
  password : JsString
deriving DecidableEq, Repr

/-- `{ name, email, password }`, of a body whose fields are strings. -/
def userData (fields : Fields) : Option UserData := do
  return ⟨← stringField fields (js "name"), ← stringField fields (js "email"),
    ← stringField fields (js "password")⟩

/-- What is known of what `register` is called with. -/
structure UserData.Valid (auth : Auth) (d : UserData) : Prop where
  name_trim : trim d.name = d.name
  name_length : 2 ≤ d.name.length ∧ d.name.length ≤ 100
  email : isEmail d.email = true
  email_normal : auth.normalizeEmail d.email = d.email
  password : 8 ≤ d.password.length ∧ d.password.length ≤ 128

section

variable {message : String} {v : Json} {s : JsString}

theorem aName_eq_ok : aName message v = .ok s ↔
    v = .string s ∧ 2 ≤ (trim s).length ∧ (trim s).length ≤ 100 := by
  cases v with
  | string t =>
      rw [aName, refuse_eq_ok, not_or, Nat.not_lt, Nat.not_lt]
      constructor
      · rintro ⟨h, rfl⟩
        exact ⟨rfl, h⟩
      · rintro ⟨h, hlength⟩
        cases h
        exact ⟨hlength, rfl⟩
  | _ => simp [aName]

theorem anEmail_eq_ok : anEmail message v = .ok s ↔ v = .string s ∧ isEmail (trim s) = true := by
  cases v with
  | string t =>
      rw [anEmail]
      by_cases h : isEmail (trim t) = true
      · rw [if_pos h]
        constructor
        · intro heq
          cases heq
          exact ⟨rfl, h⟩
        · rintro ⟨heq, -⟩
          cases heq
          rfl
      · rw [if_neg h]
        constructor
        · exact nofun
        · rintro ⟨heq, hs⟩
          cases heq
          exact absurd hs h
  | _ => simp [anEmail]

theorem aNewPassword_eq_ok :
    aNewPassword message v = .ok s ↔ v = .string s ∧ 8 ≤ s.length ∧ s.length ≤ 128 := by
  cases v with
  | string t =>
      rw [aNewPassword]
      by_cases h : t.length < 8
      · rw [if_pos h]
        constructor
        · exact nofun
        · rintro ⟨heq, hle, -⟩
          cases heq
          exact absurd hle (Nat.not_le.mpr h)
      · rw [if_neg h, refuse_eq_ok, Nat.not_lt]
        constructor
        · rintro ⟨hle, rfl⟩
          exact ⟨rfl, Nat.not_lt.mp h, hle⟩
        · rintro ⟨heq, -, hle⟩
          cases heq
          exact ⟨hle, rfl⟩
  | _ => simp [aNewPassword]

end

/-- The fields that `validateRegister` assigns. -/
def registerFields : List JsString := [js "name", js "email", js "password"]

theorem registerFields_nodup : registerFields.Nodup := by decide +kernel

theorem registerFields_kept : registerFields.all (fun k ↦ privilegedFields.all (k ≠ ·)) = true := by
  decide +kernel

/-- **A registration that is let through**: `register` is called with the name trimmed and the
address normalized, and no field is left that could say more of the account. -/
theorem validateRegister_ok {auth : Auth} (h : LawfulAuth auth) {body : Option Json}
    {fields : Fields} (hvalid : validateRegister auth body = .ok fields) :
    ∃ name email password, find? (js "name") (bodyFields body) = some (.string name) ∧
      find? (js "email") (bodyFields body) = some (.string email) ∧
      find? (js "password") (bodyFields body) = some (.string password) ∧
      userData fields = some ⟨trim name, auth.normalizeEmail email, password⟩ ∧
      UserData.Valid auth ⟨trim name, auth.normalizeEmail email, password⟩ ∧
      ∀ k ∈ privilegedFields, find? k fields = none := by
  simp only [validateRegister, bind_eq_ok, required_eq_ok, aName_eq_ok, anEmail_eq_ok,
    aNewPassword_eq_ok] at hvalid
  obtain ⟨name, ⟨_, hname, rfl, hlength⟩, email, ⟨_, hemail, rfl, hisEmail⟩, password,
    ⟨_, hpassword, rfl, hlong⟩, heq⟩ := hvalid
  cases heq
  have hfield : ∀ {k w}, k ∈ registerFields →
      find? k [(js "name", some (Json.string (trim name))),
        (js "email", some (.string (auth.normalizeEmail email))),
        (js "password", some (.string password))] = some (some w) →
      find? k (without privilegedFields (assign [(js "name", some (.string (trim name))),
        (js "email", some (.string (auth.normalizeEmail email))),
        (js "password", some (.string password))] (bodyFields body))) = some w := by
    intro k w hk hw
    have hkept : k ∉ privilegedFields := fun hmem ↦
      of_decide_eq_true (List.all_eq_true.mp (List.all_eq_true.mp registerFields_kept k hk) k hmem)
        rfl
    exact (Entries.find?_without_of_notMem hkept _).trans
      (Entries.find?_assign_of_some registerFields_nodup rfl _ hw)
  refine ⟨name, email, password, hname, hemail, hpassword, ?_, ⟨trim_trim name, hlength,
    h.isEmail_normalizeEmail hisEmail, h.normalizeEmail_idem hisEmail, hlong⟩, ?_⟩
  · rw [userData, stringField, stringField, stringField, hfield (by decide +kernel) rfl,
      hfield (by decide +kernel) rfl, hfield (by decide +kernel) rfl]
    rfl
  · intro k hk
    rw [Entries.find?_without, if_pos hk]

/-! ## The collection -/

/-- A document of the users collection. -/
structure User where
  id : ObjectId
  name : JsString
  email : JsString
  passwordHash : JsString
  role : Role
  isActive : Bool
  createdAt : Time
  updatedAt : Time
deriving DecidableEq, Repr

/-- The users collection, with its two unique indexes. -/
structure Users where
  docs : List User
  ids_nodup : (docs.map User.id).Nodup
  emails_nodup : (docs.map User.email).Nodup

/-- What a client is shown of an account. -/
structure SafeUser where
  id : ObjectId
  name : JsString
  email : JsString
  role : Role
deriving DecidableEq, Repr

/-- The answer of `register`, and the user in that of `login`. -/
def User.safe (u : User) : SafeUser := ⟨u.id, u.name, u.email, u.role⟩

/-- The checks of the schema. -/
def User.accepted (u : User) : Bool :=
  u.name ≠ [] ∧ u.name.length ≤ 100 ∧ u.email ≠ [] ∧ isEmail u.email ∧ u.passwordHash ≠ []

namespace Users

/-- `User.findOne({ email })`; the schema casts the filter. -/
def findByEmail (auth : Auth) (us : Users) (email : JsString) : Option User :=
  us.docs.find? (·.email = auth.normalizeEmail email)

/-- `User.findById`. -/
def findById (us : Users) (id : ObjectId) : Option User := us.docs.find? (·.id = id)

/-- No accounts. -/
def empty : Users := ⟨[], List.nodup_nil, List.nodup_nil⟩

/-- There is an account with an address. -/
def taken (us : Users) (email : JsString) : Bool := us.docs.any (·.email = email)

theorem taken_iff {us : Users} {email : JsString} :
    us.taken email = true ↔ email ∈ us.docs.map User.email := by
  simp [taken, List.any_eq_true, List.mem_map]

/-- The collection with a new account. -/
def add (us : Users) (u : User) (hid : u.id ∉ us.docs.map User.id)
    (hemail : us.taken u.email = false) : Users where
  docs := us.docs ++ [u]
  ids_nodup := by
    rw [List.map_append]
    exact List.nodup_append_comm.mp (List.nodup_cons.mpr ⟨hid, us.ids_nodup⟩)
  emails_nodup := by
    rw [List.map_append]
    have hnot : u.email ∉ us.docs.map User.email := fun hmem ↦
      Bool.false_ne_true (hemail.symm.trans (taken_iff.mpr hmem))
    exact List.nodup_append_comm.mp (List.nodup_cons.mpr ⟨hnot, us.emails_nodup⟩)

theorem taken_add {us : Users} {u : User} (hid : u.id ∉ us.docs.map User.id)
    (hemail : us.taken u.email = false) (email : JsString) :
    (us.add u hid hemail).taken email = (us.taken email || decide (u.email = email)) := by
  show (us.docs ++ [u]).any _ = _
  rw [List.any_append, List.any_cons, List.any_nil, Bool.or_false]
  rfl

/-- `User.create`, with the id that the new document gets; the schema trims the name, and
normalizes the address. -/
def create (auth : Auth) (us : Users) (now : Time) (id : ObjectId)
    (name email passwordHash : JsString) (role : Role) (isActive : Bool) :
    Except JsError (User × Users) :=
  let user : User :=
    ⟨id, trim name, auth.normalizeEmail email, passwordHash, role, isActive, now, now⟩
  if user.accepted then
    if hid : user.id ∉ us.docs.map User.id then
      if hemail : us.taken user.email = false then .ok (user, us.add user hid hemail)
      else .error duplicateKeyError
    else .error duplicateKeyError
  else .error mongooseValidationError

end Users

end CodeArena.Accounts
