import CodeArena.Accounts.Registration
import CodeArena.Lib.Separated

/-!
# Logging in and being known

`login` and the two middlewares that find out who sends a request.  A token names an account,
and what `authenticate` attaches to a request is that account as it is stored by then: a token
outlives neither the account nor its being active, and says nothing of a role
(`authenticate_bearer`).  `optionalAuthenticate` attaches the same and lets everything else
through (`optionalAuthenticate_eq`).

A registration and a login with the same password and any spelling of the address come to the
same account (`login_after_registration`).
-/

namespace CodeArena.Accounts

open CodeArena.Lib CodeArena.Lib.Utf
open CodeArena.Lib.OrderedMap (find?)
open CodeArena.Engine (trim)
open CodeArena.Submissions (ObjectId Time JsError appError)
open CodeArena.Api (Role castError)

/-! ## Tokens -/

/-- What is thrown where `JWT_SECRET` is empty. -/
def secretMissing : JsError :=
  ⟨"Error", "JWT_SECRET is not configured in the environment", none, none, false⟩

/-- `generateToken`. -/
def generateToken (auth : Auth) (now : Time) (payload : Json) : Except JsError JsString :=
  if auth.secret = [] then .error secretMissing else .ok (auth.sign payload now)

/-- `verifyToken`. -/
def verifyToken (auth : Auth) (now : Time) (token : JsString) : Except JsError Json :=
  if auth.secret = [] then .error secretMissing
  else
    match auth.verifyJwt token now with
    | .ok decoded => .ok decoded
    | .error name =>
      if name = "TokenExpiredError" then .error (appError "Token has expired" 401 none)
      else .error (appError "Invalid token" 401 none)

/-! ## `login` -/

/-- `new AppError('Invalid email or password', 401)`. -/
def invalidCredentials : JsError := appError "Invalid email or password" 401 none

/-- `new AppError('User account is inactive', 401)`. -/
def accountInactive : JsError := appError "User account is inactive" 401 none

/-- The result of `login`. -/
structure LoginResult where
  user : SafeUser
  token : JsString
deriving DecidableEq, Repr

/-- `login`. -/
def login (auth : Auth) (now : Time) (email password : JsString) (us : Users) :
    Except JsError LoginResult :=
  match us.findByEmail auth (auth.normalizeEmail email) with
  | none => .error invalidCredentials
  | some user =>
    if user.isActive then
      match auth.verify user.passwordHash password with
      | .error e => .error e
      | .ok false => .error invalidCredentials
      | .ok true =>
        (generateToken auth now (auth.payload user.id user.role)).map fun token ↦
          ⟨user.safe, token⟩
    else .error accountInactive

/-! ## `authenticate` -/

/-- `new AppError('Authentication required: missing authorization header', 401)`. -/
def headerMissing : JsError :=
  appError "Authentication required: missing authorization header" 401 none

/-- What is answered to a header that is not `Bearer <token>`. -/
def headerInvalid : JsError :=
  appError "Invalid authorization header format. Expected Bearer <token>" 401 none

/-- What is answered to a token that names nobody. -/
def payloadInvalid : JsError := appError "Invalid token payload" 401 none

/-- What is answered where the account is gone. -/
def accountGone : JsError := appError "User belonging to this token no longer exists" 401 none

/-- The token in a header. -/
def bearerToken (authorization : JsString) : Option JsString :=
  match authorization.splitOn 0x20 with
  | [scheme, token] => if scheme = js "Bearer" ∧ token ≠ [] then some token else none
  | _ => none

/-- `decoded.sub`, where the payload and its subject are truthy. -/
def subjectOf (decoded : Json) : Option Json :=
  match decoded.field (js "sub") with
  | some sub => if truthy sub then some sub else none
  | none => none

/-- `authenticate`: the account that it attaches to the request, or what it answers. -/
def authenticate (auth : Auth) (now : Time) (authorization : Option JsString) (us : Users) :
    Except JsError User :=
  match authorization with
  | none | some [] => .error headerMissing
  | some (u :: header) =>
    match bearerToken (u :: header) with
    | none => .error headerInvalid
    | some token =>
      match verifyToken auth now token with
      | .error e => .error e
      | .ok decoded =>
        match subjectOf decoded with
        | none => .error payloadInvalid
        | some sub =>
          match auth.castId sub with
          | none => .error castError
          | some id =>
            match us.findById id with
            | none => .error accountGone
            | some user => if user.isActive then .ok user else .error accountInactive

/-- `optionalAuthenticate`. -/
def optionalAuthenticate (auth : Auth) (now : Time) (authorization : Option JsString)
    (us : Users) : Option User :=
  match authorization with
  | none | some [] => none
  | some (u :: header) =>
    match bearerToken (u :: header) with
    | none => none
    | some token =>
      match verifyToken auth now token with
      | .error _ => none
      | .ok decoded =>
        match subjectOf decoded with
        | none => none
        | some sub =>
          match auth.castId sub with
          | none => none
          | some id =>
            match us.findById id with
            | none => none
            | some user => if user.isActive then some user else none

section

variable {auth : Auth} {now : Time} {us : Users}

/-- **Both middlewares know the same users.** -/
theorem optionalAuthenticate_eq (authorization : Option JsString) :
    optionalAuthenticate auth now authorization us =
      (authenticate auth now authorization us).toOption := by
  unfold optionalAuthenticate authenticate
  split
  · rfl
  · rfl
  · split
    · rfl
    · split
      · rfl
      · split
        · rfl
        · split
          · rfl
          · split
            · rfl
            · split <;> rfl

/-- Whom `authenticate` knows is an active account of the collection. -/
theorem mem_of_authenticate {authorization : Option JsString} {user : User}
    (h : authenticate auth now authorization us = .ok user) :
    user ∈ us.docs ∧ user.isActive = true := by
  unfold authenticate at h
  split at h
  · cases h
  · cases h
  · split at h
    · cases h
    · split at h
      · cases h
      · split at h
        · cases h
        · split at h
          · cases h
          · split at h
            · cases h
            · rename_i found hfound
              split at h
              · rename_i hactive
                cases h
                exact ⟨List.mem_of_find?_eq_some hfound, hactive⟩
              · cases h

/-! ## The life of a token -/

/-- The header of a request with a token. -/
def bearer (token : JsString) : Option JsString := some (js "Bearer" ++ 0x20 :: token)

/-- Who is known by a token of an account: the account as it is stored. -/
def holderOf (us : Users) (id : ObjectId) : Except JsError User :=
  match us.findById id with
  | none => .error accountGone
  | some user => if user.isActive then .ok user else .error accountInactive

theorem bearerToken_bearer {token : JsString} (hne : token ≠ []) (hspace : 0x20 ∉ token) :
    bearerToken (js "Bearer" ++ 0x20 :: token) = some token := by
  have hscheme : (0x20 : CodeUnit) ∉ js "Bearer" := by decide +kernel
  rw [bearerToken, Separated.splitOn_pair hscheme hspace]
  exact if_pos ⟨rfl, hne⟩

/-- A request with a token that was signed for an account. -/
theorem authenticate_bearer (h : LawfulAuth auth) (id : ObjectId) (role : Role) (t : Time) :
    authenticate auth now (bearer (auth.sign (auth.payload id role) t)) us =
      if now / 1000 < t / 1000 + auth.expiresIn then holderOf us id
      else .error (appError "Token has expired" 401 none) := by
  obtain ⟨u, header, hheader⟩ : ∃ u header, js "Bearer" = u :: header :=
    List.exists_cons_of_ne_nil (by decide +kernel)
  have htoken := bearerToken_bearer (h.sign_ne_nil (auth.payload id role) t)
    (h.sign_no_space (auth.payload id role) t)
  rw [bearer, hheader] at *
  simp only [List.cons_append] at htoken ⊢
  by_cases hnow : now / 1000 < t / 1000 + auth.expiresIn
  · obtain ⟨decoded, hverify, hsub⟩ := h.verify_sign id role t now hnow
    have hverified : verifyToken auth now (auth.sign (auth.payload id role) t) = .ok decoded := by
      rw [verifyToken, if_neg h.secret_ne_nil, hverify]
    have hsubject : subjectOf decoded = some (.string (auth.idText id)) := by
      rw [subjectOf, hsub]
      exact if_pos (decide_eq_true (h.idText_ne_nil id))
    rw [if_pos hnow]
    simp only [authenticate, htoken, hverified, hsubject, h.castId_idText]
    rfl
  · have hverified : verifyToken auth now (auth.sign (auth.payload id role) t) =
        .error (appError "Token has expired" 401 none) := by
      rw [verifyToken, if_neg h.secret_ne_nil,
        h.verify_expired id role t now (Nat.not_lt.mp hnow)]
      rfl
    rw [if_neg hnow]
    simp only [authenticate, htoken, hverified]

/-! ## From a registration to a session -/

/-- A token that is known as an account, from the second in which it was issued until it
expires; what is known is the account as it is stored by then. -/
def IsSession (auth : Auth) (id : ObjectId) (issued : Time) (token : JsString) : Prop :=
  ∀ now us, authenticate auth now (bearer token) us =
    if now / 1000 < issued / 1000 + auth.expiresIn then holderOf us id
    else .error (appError "Token has expired" 401 none)

/-- The query finds the account with an address. -/
theorem findByEmail_eq_some {us : Users} {u : User} (hu : u ∈ us.docs) {email : JsString}
    (hemail : auth.normalizeEmail email = u.email) : us.findByEmail auth email = some u := by
  rw [Users.findByEmail, hemail]
  cases hf : us.docs.find? (·.email = u.email) with
  | none => exact absurd (decide_eq_true rfl) (List.find?_eq_none.mp hf u hu)
  | some v =>
      have hv : v.email = u.email := by simpa using List.find?_some hf
      exact congrArg some (List.inj_on_of_nodup_map us.emails_nodup (List.mem_of_find?_eq_some hf)
        hu hv)

/-- **A login comes to a session** of the account with the address, if it is active and the
password is verified. -/
theorem login_eq_ok (h : LawfulAuth auth) {u : User} (hu : u ∈ us.docs)
    (hactive : u.isActive = true) {email password : JsString}
    (hemail : auth.normalizeEmail (auth.normalizeEmail email) = u.email)
    (hpassword : auth.verify u.passwordHash password = .ok true) :
    ∃ token, login auth now email password us = .ok ⟨u.safe, token⟩ ∧
      IsSession auth u.id now token := by
  refine ⟨auth.sign (auth.payload u.id u.role) now, ?_, fun now' us' ↦ authenticate_bearer h _ _ _⟩
  rw [login, findByEmail_eq_some hu hemail]
  simp only [hactive, hpassword, generateToken, if_neg h.secret_ne_nil]
  rfl

/-- **Who has registered can log in**, at any later point of any run, under every spelling of
the address that the validator normalizes to it, and is known by the token from then on. -/
theorem login_after_registration (h : LawfulAuth auth) {before : Users} {s t : State}
    {es es' : List Event}
    (hrun : (registrations auth before).Run FreshIds (registrations auth before).init es s)
    (hrun' : (registrations auth before).Run FreshIds s es' t) {i : Nat} {d : UserData}
    {u : SafeUser} (hi : s.phase i = .answered d (.ok u)) {email : JsString}
    (hspelled : isEmail (trim email) = true) (hsame : auth.normalizeEmail email = d.email) :
    ∃ token, login auth now email d.password t.users = .ok ⟨u, token⟩ ∧
      IsSession auth u.id now token ∧
      ∃ user, holderOf t.users u.id = .ok user ∧ user.safe = u ∧ user.role = .user := by
  obtain ⟨doc, hdoc, rfl, haccount⟩ := (sound_of_run h hrun).stored i d u hi
  have hkept := hrun'.related (I := Formed auth) (R := fun s t ↦ s.users.docs <+: t.users.docs)
    (sound_of_run h hrun).formed (fun s a t hs hfresh hstep ↦
      ⟨(moves_of_step h hs hfresh hstep).formed hs, ((moves_of_step h hs hfresh hstep).advances h).docs⟩)
    (fun _ ↦ List.prefix_refl _) fun _ _ _ ↦ List.IsPrefix.trans
  have hmem : doc ∈ t.users.docs := hkept.subset hdoc
  have hemail : auth.normalizeEmail (auth.normalizeEmail email) = doc.email := by
    rw [h.normalizeEmail_idem hspelled, hsame, haccount.email]
  obtain ⟨token, hlogin, hsession⟩ :=
    login_eq_ok h hmem haccount.isActive hemail haccount.password
  refine ⟨token, hlogin, hsession, doc, ?_, rfl, haccount.role⟩
  have hfind : t.users.findById doc.id = some doc :=
    (Api.Database.find?_id_eq_some t.users.ids_nodup).mpr ⟨hmem, rfl⟩
  show holderOf t.users doc.id = _
  rw [holderOf, hfind]
  exact if_pos haccount.isActive

end

/-- The request of the example that has got the address logs in, in another spelling. -/
theorem login_after_registration_two :
    ∃ s d u, (registrations .sample .empty).Run FreshIds
      (registrations .sample .empty).init twoRequests s ∧ s.phase 1 = .answered d (.ok u) ∧
      ∃ token, login .sample 5000 (js " ANN@code.org ") d.password s.users = .ok ⟨u, token⟩ ∧
        IsSession .sample u.id 5000 token ∧
        ∃ user, holderOf s.users u.id = .ok user ∧ user.safe = u ∧ user.role = .user := by
  obtain ⟨s, hrun, hboth⟩ := exists_twoRequests
  unfold bothAnswered at hboth
  split at hboth
  · rename_i d a d' u h0 h1
    have hemail : d'.email = js "ann@code.org" :=
      of_decide_eq_true (Bool.and_eq_true_iff.mp hboth).2
    have hfresh := hrun.mono fun _ _ hok ↦ hok.1
    have hsame : Auth.sample.normalizeEmail (js " ANN@code.org ") = d'.email := by
      rw [hemail]
      decide +kernel
    exact ⟨s, d', u, hfresh, h1, login_after_registration Auth.sample_lawful hfresh (.nil s) h1
      (by decide +kernel) hsame⟩
  · cases hboth

end CodeArena.Accounts
