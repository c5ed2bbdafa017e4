import CodeArena.Accounts.Model
import CodeArena.Lib.Contest
import CodeArena.Lib.Simulation

/-!
# Registrations that go on at the same time

`register` looks for an account with the address, hashes the password, and creates the
account; other requests run between its three calls, in this process and in others, and any
of the calls may fail.  A machine has one step for each of them.

It is a contest for addresses (`simulates_contest`): a request that finds its address taken, or
that the unique index refuses, gives the address up, and a request that creates its account has
won it.  So an address is given to one request at most (`registrations_safe`), and where nothing
fails, to exactly one of those that asked for it (`registrations_decided`).

## Honest boundary

Hashing and the calls of MongoDB may take any time and come out in any order.  What they throw
has no status code and is no duplicate key; the driver makes ids that are new.
-/

namespace CodeArena.Accounts

open CodeArena.Lib CodeArena.Lib.Utf
open CodeArena.Lib.OrderedMap (find?)
open CodeArena.Engine (trim)
open CodeArena.Submissions (ObjectId Time JsError appError mongooseValidationError)
open CodeArena.Api (Role Fields badRequest required bodyFields duplicateKeyError typeError)

/-! ## The machine -/

/-- `new AppError('User already exists', 409)`. -/
def userExists : JsError := appError "User already exists" 409 none

/-- Where a request for a registration stands. -/
inductive Phase where
  /-- It has not come yet. -/
  | waiting
  /-- `validateRegister` has refused it. -/
  | refused (e : JsError)
  /-- Before `User.findOne`. -/
  | looking (d : UserData)
  /-- Before `hashPassword`. -/
  | hashing (d : UserData)
  /-- Before `User.create`. -/
  | creating (d : UserData) (passwordHash : JsString)
  | answered (d : UserData) (answer : Except JsError SafeUser)

/-- The collection, and all requests. -/
structure State where
  users : Users
  phase : Nat → Phase

/-- What happens next. -/
inductive Event where
  | arrive (i : Nat) (body : Option Json)
  /-- `User.findOne` returns. -/
  | look (i : Nat)
  /-- `hashPassword` returns, with the salt that it drew. -/
  | hash (i : Nat) (salt : Nat)
  /-- `User.create` returns, or throws what the collection makes it throw. -/
  | create (i : Nat) (now : Time) (id : ObjectId)
  /-- The call that the request waits for fails, and nothing is stored. -/
  | fail (i : Nat) (e : JsError)
  /-- `User.create` stores the account, and fails after that. -/
  | lose (i : Nat) (now : Time) (id : ObjectId) (e : JsError)

/-- What a call throws where it fails. -/
def IsFault (e : JsError) : Prop := e.statusCode = none ∧ e ≠ duplicateKeyError

instance (e : JsError) : Decidable (IsFault e) := inferInstanceAs (Decidable (_ ∧ _))

/-- A request stands somewhere else. -/
def State.put (s : State) (i : Nat) (p : Phase) : State :=
  { s with phase := Function.update s.phase i p }

/-- Whom `validateRegister` lets through. -/
def enter (auth : Auth) (body : Option Json) : Phase :=
  match validateRegister auth body with
  | .error e => .refused e
  | .ok fields =>
    match userData fields with
    | none => .refused typeError
    | some d => .looking d

/-- `User.create` for a registration. -/
def createUser (auth : Auth) (us : Users) (now : Time) (id : ObjectId) (d : UserData)
    (passwordHash : JsString) : Except JsError (User × Users) :=
  us.create auth now id (trim d.name) (auth.normalizeEmail d.email) passwordHash .user true

/-- The `catch` block. -/
def caught (e : JsError) : JsError := if e = duplicateKeyError then userExists else e

/-- One step. -/
def step (auth : Auth) (s : State) : Event → Option State
  | .arrive i body =>
    match s.phase i with
    | .waiting => some (s.put i (enter auth body))
    | _ => none
  | .look i =>
    match s.phase i with
    | .looking d =>
      match s.users.findByEmail auth (auth.normalizeEmail d.email) with
      | some _ => some (s.put i (.answered d (.error userExists)))
      | none => some (s.put i (.hashing d))
    | _ => none
  | .hash i salt =>
    match s.phase i with
    | .hashing d => some (s.put i (.creating d (auth.hash salt d.password)))
    | _ => none
  | .create i now id =>
    match s.phase i with
    | .creating d passwordHash =>
      match createUser auth s.users now id d passwordHash with
      | .ok (user, users) => some ({ s with users }.put i (.answered d (.ok user.safe)))
      | .error e => some (s.put i (.answered d (.error (caught e))))
    | _ => none
  | .fail i e =>
    if IsFault e then
      match s.phase i with
      | .looking d | .hashing d | .creating d _ => some (s.put i (.answered d (.error (caught e))))
      | _ => none
    else none
  | .lose i now id e =>
    if IsFault e then
      match s.phase i with
      | .creating d passwordHash =>
        match createUser auth s.users now id d passwordHash with
        | .ok (_, users) => some ({ s with users }.put i (.answered d (.error (caught e))))
        | .error _ => none
      | _ => none
    else none

/-- Registrations over a collection of accounts. -/
def registrations (auth : Auth) (users : Users) : Machine State Event :=
  ⟨⟨users, fun _ ↦ .waiting⟩, step auth⟩

/-- The driver makes ids that are new. -/
def FreshIds (s : State) : Event → Prop
  | .create _ _ id | .lose _ _ id _ => id ∉ s.users.docs.map User.id
  | _ => True

/-- A call fails. -/
def Event.isFault : Event → Bool
  | .fail _ _ | .lose _ _ _ _ => true
  | _ => false

/-- Nothing fails. -/
def NoFaults (s : State) (a : Event) : Prop := FreshIds s a ∧ a.isFault = false

instance (s : State) : (a : Event) → Decidable (FreshIds s a)
  | .create _ _ id => inferInstanceAs (Decidable (id ∉ s.users.docs.map User.id))
  | .lose _ _ id _ => inferInstanceAs (Decidable (id ∉ s.users.docs.map User.id))
  | .arrive _ _ | .look _ | .hash _ _ | .fail _ _ => .isTrue trivial

instance (s : State) (a : Event) : Decidable (NoFaults s a) := inferInstanceAs (Decidable (_ ∧ _))

/-! ## What a step does -/

/-- The account of a registration. -/
def newUser (auth : Auth) (d : UserData) (salt : Nat) (now : Time) (id : ObjectId) : User :=
  ⟨id, d.name, d.email, auth.hash salt d.password, .user, true, now, now⟩

/-- The request that is under way in a phase. -/
def Phase.request : Phase → Option UserData
  | .looking d | .hashing d | .creating d _ => some d
  | _ => none

/-- What is known of a request. -/
def Phase.Formed (auth : Auth) : Phase → Prop
  | .waiting | .refused _ => True
  | .looking d | .hashing d | .answered d _ => d.Valid auth
  | .creating d passwordHash => d.Valid auth ∧ ∃ salt, passwordHash = auth.hash salt d.password

/-- The ways in which the machine moves, `faults` telling whether calls fail. -/
inductive Moves (auth : Auth) (faults : Prop) (s : State) : State → Prop
  | refuse {i : Nat} {e : JsError} : s.phase i = .waiting → Moves auth faults s (s.put i (.refused e))
  | enter {i : Nat} {d : UserData} : s.phase i = .waiting → d.Valid auth →
      Moves auth faults s (s.put i (.looking d))
  | free {i : Nat} {d : UserData} : s.phase i = .looking d →
      Moves auth faults s (s.put i (.hashing d))
  | hashed {i salt : Nat} {d : UserData} : s.phase i = .hashing d →
      Moves auth faults s (s.put i (.creating d (auth.hash salt d.password)))
  /-- There is an account with the address, by the query or by the index. -/
  | conflict {i : Nat} {d : UserData} : (s.phase i).request = some d →
      s.users.taken d.email = true →
      Moves auth faults s (s.put i (.answered d (.error userExists)))
  /-- The account is created, and the request is told of it or not. -/
  | created {i salt : Nat} {d : UserData} {now : Time} {id : ObjectId}
      {answer : Except JsError SafeUser}
      (hid : (newUser auth d salt now id).id ∉ s.users.docs.map User.id)
      (hemail : s.users.taken (newUser auth d salt now id).email = false) :
      (s.phase i).request = some d →
      answer = .ok (newUser auth d salt now id).safe ∨
        (∃ e, IsFault e ∧ answer = .error e) ∧ faults →
      Moves auth faults s
        ({ s with users := s.users.add (newUser auth d salt now id) hid hemail }.put i
          (.answered d answer))
  | failed {i : Nat} {d : UserData} {e : JsError} : (s.phase i).request = some d → IsFault e →
      faults → Moves auth faults s (s.put i (.answered d (.error e)))

theorem caught_of_isFault {e : JsError} (h : IsFault e) : caught e = e := if_neg h.2

/-- **The schema refuses no account of a valid request**: it is created, or its address is
taken. -/
theorem createUser_eq {auth : Auth} (h : LawfulAuth auth) {us : Users} {now : Time} {id : ObjectId}
    {d : UserData} (hd : d.Valid auth) (salt : Nat) (hid : id ∉ us.docs.map User.id) :
    createUser auth us now id d (auth.hash salt d.password) =
      if hemail : us.taken (newUser auth d salt now id).email = false then
        .ok (newUser auth d salt now id, us.add (newUser auth d salt now id) hid hemail)
      else .error duplicateKeyError := by
  have hname : d.name ≠ [] := List.ne_nil_of_length_pos (Nat.lt_of_lt_of_le Nat.two_pos hd.name_length.1)
  have haccepted : (newUser auth d salt now id).accepted = true := by
    simp [User.accepted, newUser, hname, hd.name_length.2, ne_nil_of_isEmail hd.email, hd.email,
      h.hash_ne_nil]
  rw [createUser, hd.name_trim, hd.email_normal, Users.create]
  simp only [hd.name_trim, hd.email_normal]
  exact (if_pos haccepted).trans (dif_pos hid)

section

variable {auth : Auth} {s t : State} {a : Event}

/-- Every request is formed. -/
def Formed (auth : Auth) (s : State) : Prop := ∀ i, (s.phase i).Formed auth

theorem phase_put (s : State) (i : Nat) (p : Phase) (j : Nat) :
    (s.put i p).phase j = if j = i then p else s.phase j := by
  show Function.update s.phase i p j = _
  rw [Function.update_apply]

theorem request_valid (hs : Formed auth s) {i : Nat} {d : UserData}
    (hi : (s.phase i).request = some d) : d.Valid auth := by
  have hform := hs i
  cases hp : s.phase i with
  | looking d' =>
      rw [hp] at hi hform
      cases hi
      exact hform
  | hashing d' =>
      rw [hp] at hi hform
      cases hi
      exact hform
  | creating d' passwordHash =>
      rw [hp] at hi hform
      cases hi
      exact hform.1
  | _ =>
      rw [hp] at hi
      cases hi

/-- An account with an address is in the collection, or the query finds none. -/
theorem findByEmail_eq_none {us : Users} {d : UserData} (hd : d.Valid auth) :
    us.findByEmail auth (auth.normalizeEmail d.email) = none ↔ us.taken d.email = false := by
  rw [Users.findByEmail, hd.email_normal, hd.email_normal, List.find?_eq_none, Users.taken,
    List.any_eq_false]

/-- **Inversion.**  What a step does. -/
theorem moves_of_step (h : LawfulAuth auth) (hs : Formed auth s) (hfresh : FreshIds s a)
    (hstep : step auth s a = some t) : Moves auth (a.isFault = true) s t := by
  cases a with
  | arrive i body =>
      simp only [step] at hstep
      split at hstep
      · rename_i hwaiting
        cases hstep
        unfold enter
        split
        · exact .refuse hwaiting
        · rename_i fields hvalid
          obtain ⟨name, email, password, -, -, -, hdata, hd, -⟩ := validateRegister_ok h hvalid
          rw [hdata]
          exact .enter hwaiting hd
      · cases hstep
  | look i =>
      simp only [step] at hstep
      split at hstep
      · rename_i d hlooking
        have hrequest : (s.phase i).request = some d := by rw [hlooking]; rfl
        have hnone : s.users.findByEmail auth (auth.normalizeEmail d.email) = none ↔ _ :=
          findByEmail_eq_none (request_valid hs hrequest)
        split at hstep
        · rename_i u hfound
          cases hstep
          refine .conflict hrequest (eq_true_of_ne_false fun hnot ↦ ?_)
          rw [hnone.mpr hnot] at hfound
          cases hfound
        · cases hstep
          exact .free hlooking
      · cases hstep
  | hash i salt =>
      simp only [step] at hstep
      split at hstep
      · rename_i d hhashing
        cases hstep
        exact .hashed hhashing
      · cases hstep
  | create i now id =>
      simp only [step] at hstep
      split at hstep
      · rename_i d passwordHash hcreating
        have hrequest : (s.phase i).request = some d := by rw [hcreating]; rfl
        have hform := hs i
        rw [hcreating] at hform
        obtain ⟨hd, salt, rfl⟩ := hform
        rw [createUser_eq h hd salt hfresh] at hstep
        by_cases hemail : s.users.taken (newUser auth d salt now id).email = false
        · rw [dif_pos hemail] at hstep
          cases hstep
          exact .created hfresh hemail hrequest (.inl rfl)
        · rw [dif_neg hemail] at hstep
          cases hstep
          exact .conflict hrequest (eq_true_of_ne_false hemail)
      · cases hstep
  | fail i e =>
      simp only [step] at hstep
      split at hstep
      · rename_i hfault
        rw [caught_of_isFault hfault] at hstep
        split at hstep
        · rename_i d hphase
          cases hstep
          exact .failed (by rw [hphase]; rfl) hfault rfl
        · rename_i d hphase
          cases hstep
          exact .failed (by rw [hphase]; rfl) hfault rfl
        · rename_i d passwordHash hphase
          cases hstep
          exact .failed (by rw [hphase]; rfl) hfault rfl
        · cases hstep
      · cases hstep
  | lose i now id e =>
      simp only [step] at hstep
      split at hstep
      · rename_i hfault
        split at hstep
        · rename_i d passwordHash hcreating
          have hrequest : (s.phase i).request = some d := by rw [hcreating]; rfl
          have hform := hs i
          rw [hcreating] at hform
          obtain ⟨hd, salt, rfl⟩ := hform
          rw [createUser_eq h hd salt hfresh, caught_of_isFault hfault] at hstep
          by_cases hemail : s.users.taken (newUser auth d salt now id).email = false
          · rw [dif_pos hemail] at hstep
            cases hstep
            exact .created hfresh hemail hrequest (.inr ⟨⟨e, hfault, rfl⟩, rfl⟩)
          · rw [dif_neg hemail] at hstep
            cases hstep
        · cases hstep
      · cases hstep

/-- A request that is formed may stand anywhere that is formed. -/
theorem Formed.put (hs : Formed auth s) {i : Nat} {p : Phase} (hp : p.Formed auth) :
    Formed auth (s.put i p) := by
  intro j
  rw [phase_put]
  split
  · exact hp
  · exact hs j

theorem Moves.formed {faults : Prop} (h : Moves auth faults s t) (hs : Formed auth s) :
    Formed auth t := by
  cases h with
  | refuse _ => exact hs.put trivial
  | enter _ hd => exact hs.put hd
  | @free i d hi => exact hs.put (request_valid hs (i := i) (by rw [hi]; rfl))
  | @hashed i salt d hi => exact hs.put ⟨request_valid hs (i := i) (by rw [hi]; rfl), salt, rfl⟩
  | conflict hi _ => exact hs.put (request_valid hs hi)
  | created _ _ hi _ => exact Formed.put (s := { s with users := _ }) hs (request_valid hs hi)
  | failed hi _ _ => exact hs.put (request_valid hs hi)

end

/-! ## The contest for addresses -/

/-- Where a request stands in the contest. -/
def Phase.stand : Phase → Stand JsString
  | .waiting | .refused _ => .out
  | .looking d | .hashing d | .creating d _ => .wants d.email
  | .answered d (.ok _) => .won d.email
  | .answered d (.error e) => if e = userExists then .lost d.email else .left d.email

/-- The requests stand as in a contest, in which the addresses of accounts are held. -/
structure Represents (auth : Auth) (s : State) (c : Contest Nat JsString) : Prop where
  formed : Formed auth s
  stand : ∀ i, c.stand i = (s.phase i).stand
  holder : ∀ k, c.holder k = .nobody ↔ s.users.taken k = false

section

variable {auth : Auth} {s t : State} {c : Contest Nat JsString} {i : Nat} {p : Phase}

theorem stand_of_request {d : UserData} (h : p.request = some d) : p.stand = .wants d.email := by
  cases p with
  | looking d' => cases h; rfl
  | hashing d' => cases h; rfl
  | creating d' passwordHash => cases h; rfl
  | _ => cases h

theorem stand_of_fault {d : UserData} {e : JsError} (h : IsFault e) :
    (Phase.answered d (.error e)).stand = .left d.email := by
  refine if_neg fun heq ↦ ?_
  have hcode := h.1
  rw [heq] at hcode
  cases hcode

/-- A request and a contender move on together. -/
theorem Represents.put (h : Represents auth s c) (hp : p.Formed auth) :
    Represents auth (s.put i p) (c.put i p.stand) where
  formed := h.formed.put hp
  stand j := by
    rw [Contest.stand_put, phase_put]
    split
    · rfl
    · exact h.stand j
  holder := h.holder

/-- A request moves on, and its contender stays where it is. -/
theorem Represents.stay (h : Represents auth s c) (hp : p.Formed auth)
    (hstand : p.stand = (s.phase i).stand) : Represents auth (s.put i p) c where
  formed := h.formed.put hp
  stand j := by
    rw [phase_put]
    split
    · rename_i hj
      rw [hstand, h.stand, hj]
    · exact h.stand j
  holder := h.holder

/-- An account is created, and its address is held. -/
theorem Represents.give (h : Represents auth s c) {u : User}
    (hid : u.id ∉ s.users.docs.map User.id) (hemail : s.users.taken u.email = false) :
    Represents auth { s with users := s.users.add u hid hemail } (c.give i u.email) where
  formed := h.formed
  stand := h.stand
  holder k := by
    rw [Contest.holder_give, Users.taken_add, Bool.or_eq_false_iff, decide_eq_false_iff_not]
    by_cases hk : k = u.email
    · rw [if_pos hk]
      exact iff_of_false nofun fun h ↦ h.2 hk.symm
    · rw [if_neg hk, h.holder k]
      exact (and_iff_left (Ne.symm hk)).symm

/-- One move of a contender. -/
theorem run_one {held : JsString → Bool} {c c' : Contest Nat JsString} {m : Move Nat JsString}
    (h : c.move m = some c') : (Contest.machine held).Run Machine.anyStep c [m] c' :=
  .cons trivial h (.nil c')

/-- **What a request does is a move of its contender, or none.** -/
theorem Moves.contest {faults : Prop} (hmove : Moves auth faults s t) (h : Represents auth s c)
    (held : JsString → Bool) :
    ∃ ms c', (Contest.machine held).Run Machine.anyStep c ms c' ∧ Represents auth t c' := by
  have hwants : ∀ {i d}, (s.phase i).request = some d → c.stand i = .wants d.email :=
    fun hi ↦ (h.stand _).trans (stand_of_request hi)
  cases hmove with
  | @refuse i e hi => exact ⟨[], c, .nil c, h.stay trivial (by rw [hi]; rfl)⟩
  | @enter i d hi hd =>
      have hout : c.stand i = .out := by rw [h.stand, hi]; rfl
      exact ⟨[.enter i d.email], _, run_one (Contest.move_enter hout), h.put (p := .looking d) hd⟩
  | @free i d hi =>
      exact ⟨[], c, .nil c, h.stay (request_valid h.formed (i := i) (by rw [hi]; rfl))
        (by rw [hi]; rfl)⟩
  | @hashed i salt d hi =>
      exact ⟨[], c, .nil c, h.stay ⟨request_valid h.formed (i := i) (by rw [hi]; rfl), salt, rfl⟩
        (by rw [hi]; rfl)⟩
  | @conflict i d hi htaken =>
      have hheld : c.holder d.email ≠ .nobody := by
        rw [Ne, h.holder, htaken]
        exact nofun
      exact ⟨[.yield i], _, run_one (Contest.move_yield (hwants hi) hheld),
        h.put (request_valid h.formed hi)⟩
  | @created i salt d now id answer hid hemail hi hanswer =>
      have hfree : c.holder d.email = .nobody := (h.holder _).mpr hemail
      have hgive := (h.give (i := i) hid hemail).put (i := i) (p := .answered d answer)
        (request_valid h.formed hi)
      rcases hanswer with rfl | ⟨⟨e, hfault, rfl⟩, -⟩
      · exact ⟨[.take i], _, run_one (Contest.move_take (hwants hi) hfree), hgive⟩
      · rw [stand_of_fault hfault] at hgive
        exact ⟨[.lose i], _, run_one (Contest.move_lose (hwants hi) hfree), hgive⟩
  | @failed i d e hi hfault _ =>
      have hput := h.put (i := i) (p := .answered d (.error e)) (request_valid h.formed hi)
      rw [stand_of_fault hfault] at hput
      exact ⟨[.leave i], _, run_one (Contest.move_leave (hwants hi)), hput⟩

end

/-- **Registrations are a contest for addresses.** -/
theorem simulates_contest {auth : Auth} (h : LawfulAuth auth) (us : Users) :
    (registrations auth us).Simulates FreshIds (Contest.machine us.taken) Machine.anyStep
      (Represents auth) where
  init := {
    formed := fun _ ↦ trivial
    stand := fun _ ↦ rfl
    holder := fun k ↦ by
      show (if us.taken k then Holder.before else Holder.nobody) = .nobody ↔ us.taken k = false
      cases us.taken k with
      | false => exact iff_of_true rfl rfl
      | true => exact iff_of_false nofun nofun }
  step _ _ _ _ hR hfresh hstep := (moves_of_step h hR.formed hfresh hstep).contest hR _

/-! ## The accounts that are created -/

/-- The account is one that the request asks for. -/
structure IsAccount (auth : Auth) (d : UserData) (u : User) : Prop where
  name : u.name = d.name
  email : u.email = d.email
  role : u.role = .user
  isActive : u.isActive = true
  password : auth.verify u.passwordHash d.password = .ok true

/-- What a step adds to the accounts and to the answers. -/
structure Advances (auth : Auth) (s t : State) : Prop where
  docs : s.users.docs <+: t.users.docs
  kept : ∀ i d a, s.phase i = .answered d a → t.phase i = .answered d a
  stored : ∀ i d u, t.phase i = .answered d (.ok u) →
    s.phase i = .answered d (.ok u) ∨ ∃ doc ∈ t.users.docs, doc.safe = u ∧ IsAccount auth d doc
  origin : ∀ doc ∈ t.users.docs, doc ∈ s.users.docs ∨
    ∃ i d a, t.phase i = .answered d a ∧ IsAccount auth d doc ∧
      (a = .ok doc.safe ∨ ∃ e, IsFault e ∧ a = .error e)

section

variable {auth : Auth} {s t : State} {i : Nat}

/-- A request that has not been answered moves on, and is not told of an account. -/
theorem advances_put {p : Phase} (hi : ∀ d a, s.phase i ≠ .answered d a)
    (hp : ∀ d u, p ≠ .answered d (.ok u)) : Advances auth s (s.put i p) where
  docs := List.prefix_refl _
  kept j d a hj := by
    have hne : j ≠ i := fun heq ↦ hi d a (heq ▸ hj)
    rw [phase_put, if_neg hne]
    exact hj
  stored j d u hj := by
    rw [phase_put] at hj
    split at hj
    · exact absurd hj (hp d u)
    · exact .inl hj
  origin doc hdoc := .inl hdoc

theorem ne_answered_of_request {d : UserData} (h : (s.phase i).request = some d)
    (d' : UserData) (a : Except JsError SafeUser) : s.phase i ≠ .answered d' a := by
  intro heq
  rw [heq] at h
  cases h

theorem isAccount_newUser (h : LawfulAuth auth) (d : UserData) (salt : Nat) (now : Time)
    (id : ObjectId) : IsAccount auth d (newUser auth d salt now id) :=
  ⟨rfl, rfl, rfl, rfl, h.verify_hash salt d.password⟩

/-- **Step lemma.** -/
theorem Moves.advances {faults : Prop} (h : LawfulAuth auth) (hmove : Moves auth faults s t) :
    Advances auth s t := by
  cases hmove with
  | refuse hi => exact advances_put (fun _ _ ↦ by rw [hi]; nofun) nofun
  | enter hi _ => exact advances_put (fun _ _ ↦ by rw [hi]; nofun) nofun
  | free hi => exact advances_put (fun _ _ ↦ by rw [hi]; nofun) nofun
  | hashed hi => exact advances_put (fun _ _ ↦ by rw [hi]; nofun) nofun
  | conflict hi _ => exact advances_put (ne_answered_of_request hi) nofun
  | failed hi _ _ => exact advances_put (ne_answered_of_request hi) nofun
  | @created i salt d now id answer hid hemail hi hanswer =>
      have hphase (j : Nat) : ({ s with users := s.users.add _ hid hemail }.put i
          (.answered d answer)).phase j = if j = i then .answered d answer else s.phase j :=
        phase_put _ i _ j
      have hnew : newUser auth d salt now id ∈ s.users.docs ++ [newUser auth d salt now id] :=
        List.mem_append_right _ (List.mem_singleton_self _)
      refine ⟨List.prefix_append _ _, fun j d' a hj ↦ ?_, fun j d' u hj ↦ ?_, fun doc hdoc ↦ ?_⟩
      · have hne : j ≠ i := fun heq ↦ ne_answered_of_request hi d' a (heq ▸ hj)
        rw [hphase, if_neg hne]
        exact hj
      · rw [hphase] at hj
        split at hj
        · rcases hanswer with rfl | ⟨⟨e, -, rfl⟩, -⟩
          · cases hj
            exact .inr ⟨_, hnew, rfl, isAccount_newUser h d salt now id⟩
          · cases hj
        · exact .inl hj
      · rcases List.mem_append.mp hdoc with hold | hdoc
        · exact .inl hold
        · rw [List.mem_singleton.mp hdoc]
          refine .inr ⟨i, d, answer, (hphase i).trans (if_pos rfl),
            isAccount_newUser h d salt now id, ?_⟩
          rcases hanswer with rfl | ⟨hfault, -⟩
          · exact .inl rfl
          · exact .inr hfault

end

/-- What holds of registrations over a collection of accounts. -/
structure Safe (auth : Auth) (before : Users) (s : State) : Prop where
  /-- The accounts that were there are there, as they were. -/
  kept : before.docs <+: s.users.docs
  /-- An address is given to one request at most. -/
  once : ∀ i j d d' u u', s.phase i = .answered d (.ok u) → s.phase j = .answered d' (.ok u') →
    d.email = d'.email → i = j
  /-- Who is told of an account has one, which is no administrator's. -/
  stored : ∀ i d u, s.phase i = .answered d (.ok u) →
    ∃ doc ∈ s.users.docs, doc.safe = u ∧ IsAccount auth d doc
  /-- Who is told of a conflict asked for the address of an account. -/
  conflict : ∀ i d, s.phase i = .answered d (.error userExists) → s.users.taken d.email = true
  /-- Every new account is one that a request asked for, which was told of it or of a fault. -/
  origin : ∀ doc ∈ s.users.docs, doc ∈ before.docs ∨
    ∃ i d a, s.phase i = .answered d a ∧ IsAccount auth d doc ∧
      (a = .ok doc.safe ∨ ∃ e, IsFault e ∧ a = .error e)

/-- The part of `Safe` that is not about the contest. -/
structure Sound (auth : Auth) (before : Users) (s : State) : Prop where
  formed : Formed auth s
  kept : before.docs <+: s.users.docs
  stored : ∀ i d u, s.phase i = .answered d (.ok u) →
    ∃ doc ∈ s.users.docs, doc.safe = u ∧ IsAccount auth d doc
  origin : ∀ doc ∈ s.users.docs, doc ∈ before.docs ∨
    ∃ i d a, s.phase i = .answered d a ∧ IsAccount auth d doc ∧
      (a = .ok doc.safe ∨ ∃ e, IsFault e ∧ a = .error e)

section

variable {auth : Auth} {before : Users} {s t : State} {ok : State → Event → Prop}
  {es : List Event}

theorem Sound.advance (h : Sound auth before s) (hform : Formed auth t)
    (hadv : Advances auth s t) : Sound auth before t where
  formed := hform
  kept := h.kept.trans hadv.docs
  stored i d u hi := by
    rcases hadv.stored i d u hi with hi | hnew
    · obtain ⟨doc, hdoc, hsafe, haccount⟩ := h.stored i d u hi
      exact ⟨doc, hadv.docs.subset hdoc, hsafe, haccount⟩
    · exact hnew
  origin doc hdoc := by
    rcases hadv.origin doc hdoc with hold | hnew
    · rcases h.origin doc hold with hbefore | ⟨i, d, a, hi, haccount, ha⟩
      · exact .inl hbefore
      · exact .inr ⟨i, d, a, hadv.kept i d a hi, haccount, ha⟩
    · exact .inr hnew

theorem sound_of_run (h : LawfulAuth auth)
    (hrun : (registrations auth before).Run FreshIds (registrations auth before).init es s) :
    Sound auth before s := by
  refine hrun.invariant ⟨fun _ ↦ trivial, List.prefix_refl _, nofun, fun doc hdoc ↦ .inl hdoc⟩ ?_
  intro s a t hs hfresh hstep
  have hmove := moves_of_step h hs.formed hfresh hstep
  exact hs.advance (hmove.formed hs.formed) (hmove.advances h)

/-- A run is one of a fair contest. -/
theorem fair_of_run (h : LawfulAuth auth)
    (hrun : (registrations auth before).Run FreshIds (registrations auth before).init es s) :
    ∃ c, Contest.Fair before.taken c ∧ Represents auth s c := by
  obtain ⟨c, hc, hR⟩ := (simulates_contest h before).reachable ⟨es, hrun⟩
  exact ⟨c, Contest.fair_of_reachable hc, hR⟩

/-- An address is given to one request at most. -/
theorem once_of_run (h : LawfulAuth auth)
    (hrun : (registrations auth before).Run FreshIds (registrations auth before).init es s)
    {i j : Nat} {d d' : UserData} {u u' : SafeUser} (hi : s.phase i = .answered d (.ok u))
    (hj : s.phase j = .answered d' (.ok u')) (hemail : d.email = d'.email) : i = j := by
  obtain ⟨c, hfair, hR⟩ := fair_of_run h hrun
  have hwi : c.stand i = .won d.email := by rw [hR.stand, hi]; rfl
  have hwj : c.stand j = .won d.email := by rw [hR.stand, hj, hemail]; rfl
  exact hfair.winner_unique hwi hwj

/-- **Registrations are safe**, in every order of their steps and whatever fails. -/
theorem registrations_safe (h : LawfulAuth auth)
    (hrun : (registrations auth before).Run FreshIds (registrations auth before).init es s) :
    Safe auth before s := by
  have hsound := sound_of_run h hrun
  obtain ⟨c, hfair, hR⟩ := fair_of_run h hrun
  constructor
  case kept => exact hsound.kept
  case stored => exact hsound.stored
  case origin => exact hsound.origin
  case once => exact fun i j d d' u u' ↦ once_of_run h hrun
  case conflict =>
    intro i d hi
    have hlost : c.stand i = .lost d.email := by rw [hR.stand, hi]; rfl
    refine eq_true_of_ne_false fun hfree ↦ hfair.lost i _ hlost ?_
    exact (hR.holder _).mpr hfree

/-! ## Without faults -/

/-- Who is not told of an account is told of a conflict. -/
def Plain (s : State) : Prop := ∀ i d e, s.phase i = .answered d (.error e) → e = userExists

theorem Plain.put (h : Plain s) {i : Nat} {p : Phase}
    (hp : ∀ d e, p = .answered d (.error e) → e = userExists) : Plain (s.put i p) := by
  intro j d e hj
  rw [phase_put] at hj
  split at hj
  · exact hp d e hj
  · exact h j d e hj

theorem Moves.plain (hmove : Moves auth False s t) (h : Plain s) : Plain t := by
  cases hmove with
  | refuse _ => exact h.put nofun
  | enter _ _ => exact h.put nofun
  | free _ => exact h.put nofun
  | hashed _ => exact h.put nofun
  | conflict _ _ =>
      refine h.put fun d e heq ↦ ?_
      cases heq
      rfl
  | created _ _ _ hanswer =>
      refine Plain.put (s := { s with users := _ }) h fun d e heq ↦ ?_
      rcases hanswer with rfl | ⟨-, hfaults⟩
      · cases heq
      · exact hfaults.elim
  | failed _ _ hfaults => exact hfaults.elim

theorem plain_of_run (h : LawfulAuth auth)
    (hrun : (registrations auth before).Run NoFaults (registrations auth before).init es s) :
    Formed auth s ∧ Plain s := by
  refine hrun.invariant (I := fun s ↦ Formed auth s ∧ Plain s) ⟨fun _ ↦ trivial, nofun⟩ ?_
  rintro s a t ⟨hform, hplain⟩ ⟨hfresh, hno⟩ hstep
  have hmove := moves_of_step h hform hfresh hstep
  rw [hno] at hmove
  exact ⟨hmove.formed hform, Moves.plain (by simpa using hmove) hplain⟩

/-- No request for the address is under way. -/
def Finished (s : State) (email : JsString) : Prop :=
  ∀ i d, (s.phase i).request = some d → d.email ≠ email

/-- What becomes of the requests for an address: every one of them is told of an account or of
a conflict; of an account just one of them, or none if there was one with the address. -/
structure Decided (before : Users) (s : State) (email : JsString) : Prop where
  answers : ∀ i d a, s.phase i = .answered d a → d.email = email →
    (∃ u, a = .ok u) ∨ a = .error userExists
  winner : before.taken email = false → ∃! i, ∃ d u, s.phase i = .answered d (.ok u) ∧ d.email = email
  taken : before.taken email = true → ∀ i d u, s.phase i = .answered d (.ok u) → d.email ≠ email

/-- The request that an event is about. -/
def Event.subject : Event → Nat
  | .arrive i _ | .look i | .hash i _ | .create i _ _ | .fail i _ | .lose i _ _ _ => i

theorem phase_put_of_ne {i j : Nat} (p : Phase) (h : j ≠ i) : (s.put i p).phase j = s.phase j := by
  rw [phase_put, if_neg h]

/-- **Frame.**  A step leaves the other requests where they are. -/
theorem phase_of_step {a : Event} (hstep : step auth s a = some t) {j : Nat} (hj : j ≠ a.subject) :
    t.phase j = s.phase j := by
  cases a with
  | arrive i body =>
      simp only [step] at hstep
      split at hstep
      · cases hstep
        exact phase_put_of_ne _ hj
      · cases hstep
  | look i =>
      simp only [step] at hstep
      split at hstep
      · split at hstep
        · cases hstep
          exact phase_put_of_ne _ hj
        · cases hstep
          exact phase_put_of_ne _ hj
      · cases hstep
  | hash i salt =>
      simp only [step] at hstep
      split at hstep
      · cases hstep
        exact phase_put_of_ne _ hj
      · cases hstep
  | create i now id =>
      simp only [step] at hstep
      split at hstep
      · split at hstep
        · cases hstep
          exact phase_put_of_ne (s := { s with users := _ }) _ hj
        · cases hstep
          exact phase_put_of_ne _ hj
      · cases hstep
  | fail i e =>
      simp only [step] at hstep
      split at hstep
      · split at hstep
        · cases hstep
          exact phase_put_of_ne _ hj
        · cases hstep
          exact phase_put_of_ne _ hj
        · cases hstep
          exact phase_put_of_ne _ hj
        · cases hstep
      · cases hstep
  | lose i now id e =>
      simp only [step] at hstep
      split at hstep
      · split at hstep
        · split at hstep
          · cases hstep
            exact phase_put_of_ne (s := { s with users := _ }) _ hj
          · cases hstep
        · cases hstep
      · cases hstep

/-- A request that has not come is where it was. -/
theorem phase_of_run {ls : List Event} (hrun : (registrations auth before).Run ok s ls t) {j : Nat}
    (hj : ∀ a ∈ ls, j ≠ a.subject) : t.phase j = s.phase j := by
  induction hrun with
  | nil _ => rfl
  | cons _ hstep _ ih =>
      obtain ⟨hfirst, hrest⟩ := List.forall_mem_cons.mp hj
      exact (ih hrest).trans (phase_of_step hstep hfirst)

/-- **An address is given to exactly one of the requests for it**, in every order of their
steps: once all of them are answered, as soon as there is one, and if no account had the
address before. -/
theorem registrations_decided (h : LawfulAuth auth)
    (hrun : (registrations auth before).Run NoFaults (registrations auth before).init es s)
    {email : JsString} (hfinished : Finished s email) {i : Nat} {d : UserData}
    {a : Except JsError SafeUser} (hi : s.phase i = .answered d a) (hemail : d.email = email) :
    Decided before s email := by
  obtain ⟨-, hplain⟩ := plain_of_run h hrun
  have hfresh := hrun.mono fun _ _ hok ↦ hok.1
  obtain ⟨c, hfair, hR⟩ := fair_of_run h hfresh
  have hanswer : ∀ i d a, s.phase i = .answered d a → (∃ u, a = .ok u) ∨ a = .error userExists := by
    intro i d a hi
    cases a with
    | ok u => exact .inl ⟨u, rfl⟩
    | error e => exact .inr (congrArg _ (hplain i d e hi))
  -- Who has won in the contest has been told of an account, and the other way round.
  have hwon (j : Nat) : c.stand j = .won email ↔
      ∃ d u, s.phase j = .answered d (.ok u) ∧ d.email = email := by
    rw [hR.stand]
    constructor
    · intro hj
      cases hp : s.phase j with
      | answered d a =>
          rw [hp] at hj
          rcases hanswer j d a hp with ⟨u, rfl⟩ | rfl
          · cases hj
            exact ⟨d, u, rfl, rfl⟩
          · cases hj
      | _ =>
          rw [hp] at hj
          cases hj
    · rintro ⟨d, u, hj, rfl⟩
      rw [hj]
      rfl
  have hsettled : c.Settled email := by
    intro j
    rw [hR.stand]
    cases hp : s.phase j with
    | answered d a =>
        rcases hanswer j d a hp with ⟨u, rfl⟩ | rfl
        · exact ⟨nofun, nofun⟩
        · exact ⟨nofun, nofun⟩
    | waiting => exact ⟨nofun, nofun⟩
    | refused e => exact ⟨nofun, nofun⟩
    | _ =>
        refine ⟨fun hwants ↦ ?_, nofun⟩
        cases hwants
        exact hfinished j _ (by rw [hp]; rfl) rfl
  have hstood : c.stand i = .won email ∨ c.stand i = .lost email := by
    rw [hR.stand, hi]
    rcases hanswer i d a hi with ⟨u, rfl⟩ | rfl
    · exact .inl (congrArg _ hemail)
    · exact .inr (congrArg _ hemail)
  obtain ⟨hone, hnone⟩ := hfair.decided hsettled hstood
  constructor
  case answers => exact fun j d a hj _ ↦ hanswer j d a hj
  case winner =>
    intro hfree
    obtain ⟨j, hj⟩ := hone hfree
    refine ⟨j, (hwon j).mp hj, ?_⟩
    rintro j' ⟨d', u', hj', hemail'⟩
    obtain ⟨d, u, hj, hemail⟩ := (hwon j).mp hj
    exact once_of_run h hfresh hj' hj (hemail'.trans hemail.symm)
  case taken =>
    intro htaken j d u hj hemail
    exact hnone htaken j ((hwon j).mpr ⟨d, u, hj, hemail⟩)

end

/-! ## Two requests for one address -/

/-- The body of a request for a registration. -/
def registerBody (name email password : String) : Json :=
  .object [(js "name", .string (js name)), (js "email", .string (js email)),
    (js "password", .string (js password))]

/-- Two requests for one address, in different spellings: both look before either creates its
account. -/
def twoRequests : List Event :=
  [.arrive 0 (some (registerBody "Ann" " Ann@Code.org" "secret-99")),
    .arrive 1 (some (registerBody " Bob " "ann@code.org" "password")),
    .look 0, .look 1, .hash 1 5, .hash 0 6, .create 1 10 7, .create 0 11 8]

/-- The requests of the example have been answered, the second one with an account. -/
def bothAnswered (s : State) : Bool :=
  match s.phase 0, s.phase 1 with
  | .answered d _, .answered d' (.ok _) =>
    d.email = js "ann@code.org" && d'.email = js "ann@code.org"
  | _, _ => false

theorem exists_twoRequests : ∃ s, (registrations .sample .empty).Run NoFaults
    (registrations .sample .empty).init twoRequests s ∧ bothAnswered s = true :=
  Machine.exists_run_of_exec _ _ _ _ _ (by decide +kernel)

/-- Of two requests for one address. -/
theorem registrations_safe_two : ∃ s, (registrations .sample .empty).Run FreshIds
    (registrations .sample .empty).init twoRequests s ∧ Safe .sample .empty s := by
  obtain ⟨s, hrun, -⟩ := exists_twoRequests
  have hfresh := hrun.mono fun _ _ hok ↦ hok.1
  exact ⟨s, hfresh, registrations_safe Auth.sample_lawful hfresh⟩

/-- One of two requests gets the address. -/
theorem registrations_decided_two : ∃ s, (registrations .sample .empty).Run NoFaults
    (registrations .sample .empty).init twoRequests s ∧
      Decided .empty s (js "ann@code.org") := by
  obtain ⟨s, hrun, hboth⟩ := exists_twoRequests
  unfold bothAnswered at hboth
  split at hboth
  · rename_i d a d' u h0 h1
    have hemail : d.email = js "ann@code.org" :=
      of_decide_eq_true (Bool.and_eq_true_iff.mp hboth).1
    refine ⟨s, hrun, registrations_decided Auth.sample_lawful hrun ?_ h0 hemail⟩
    intro j d hj
    by_cases hj0 : j = 0
    · rw [hj0, h0] at hj
      cases hj
    by_cases hj1 : j = 1
    · rw [hj1, h1] at hj
      cases hj
    -- No event is about any other request.
    rw [phase_of_run hrun (by simp [twoRequests, Event.subject, hj0, hj1])] at hj
    cases hj
  · cases hboth

end CodeArena.Accounts
