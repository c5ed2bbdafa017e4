import CodeArena.Workers.Registry

/-!
# The order of the statuses

The statuses stored under the key of a worker never go back as long as every SET of a
record is `Ordered`.  A heartbeat that read a record must store it before any other status
is stored: what it takes over is the status of its GET.  A heartbeat that found the key
expired, and the update to READY, store READY, and must not do so once DRAINING or STOPPED
has been stored.  The two updates of `shutdown` are under no condition.

## How the proof goes

`Tracked` is the invariant.  It compares the status a heartbeat carries with the newest of
the log: the two are the same exactly if the epoch has not changed.  Every step from a
tracked state comes to a tracked state and at most one SET on top of it (`Tracked.effect`), and
whether that SET goes back is what `Ordered` says.
-/

namespace CodeArena.Workers

open CodeArena.Lib

/-! ## The order -/

namespace Status

theorem rank_injective : Function.Injective rank := by
  intro a b h
  cases a <;> cases b <;> first | rfl | cases h

theorem rank_le_stopped (a : Status) : a.rank ≤ stopped.rank := by
  cases a <;> decide

theorem rank_le_draining {a : Status} : a.rank ≤ draining.rank ↔ a ≠ stopped := by
  cases a <;> decide

theorem rank_le_ready {a : Status} : a.rank ≤ ready.rank ↔ a ≠ draining ∧ a ≠ stopped := by
  cases a <;> decide

end Status

namespace State

/-- The statuses stored since the last registration never go back. -/
def Forward (s : State) : Prop := s.log.Pairwise fun newer older ↦ older.rank ≤ newer.rank

/-- DRAINING or STOPPED has been stored. -/
def Leaving (s : State) : Prop := .draining ∈ s.log ∨ .stopped ∈ s.log

instance (s : State) : Decidable s.Leaving := inferInstanceAs (Decidable (_ ∨ _))

/-- What a heartbeat is about to SET is not behind what is stored by now. -/
def UpToDate (s : State) : Call → Prop
  | .setting _ true epoch => epoch = s.epoch
  | .setting _ false _ => ¬ s.Leaving
  | .getting => True

/-- `UpToDate`, decided. -/
def upToDate (s : State) : Call → Bool
  | .setting _ true epoch => epoch = s.epoch
  | .setting _ false _ => ¬ s.Leaving
  | .getting => true

theorem upToDate_iff {s : State} {call : Call} : s.upToDate call = true ↔ s.UpToDate call := by
  unfold upToDate UpToDate
  split <;> simp

instance (s : State) (call : Call) : Decidable (s.UpToDate call) := decidable_of_iff _ upToDate_iff

end State

/-- The SETs of the heartbeats are up to date, and READY is published only while neither
DRAINING nor STOPPED has been stored. -/
def Ordered (s : State) : Label → Prop
  | .heartbeat i (.set true) => ∀ call ∈ s.heartbeats i, s.UpToDate call
  | .publish (.set true) => ¬ s.Leaving
  | _ => True

/-- `Ordered`, decided. -/
def ordered (s : State) : Label → Bool
  | .heartbeat i (.set true) => ∀ call ∈ s.heartbeats i, s.UpToDate call
  | .publish (.set true) => ¬ s.Leaving
  | _ => true

theorem ordered_iff {s : State} {l : Label} : ordered s l = true ↔ Ordered s l := by
  unfold ordered Ordered
  split <;> simp

instance (s : State) (l : Label) : Decidable (Ordered s l) := decidable_of_iff _ ordered_iff

theorem ordered_publish {s : State} {command : Command} (h : command ≠ .set true) :
    Ordered s (.publish command) := by
  unfold Ordered
  split
  case h_2 heq => exact absurd (Label.publish.inj heq) h
  all_goals trivial

/-! ## The commands of a call -/

/-- The cases of `Call.step`. -/
inductive Call.Step (stored : Option Record) (epoch : Nat) (write : Option Record → Record) :
    Call → Command → Option Call → Option Record → Prop
  | read : Step stored epoch write .getting (.get true)
      (some (.setting (write stored) stored.isSome epoch)) none
  | unread : Step stored epoch write .getting (.get false) none none
  | wrote {record : Record} {found : Bool} {e : Nat} :
      Step stored epoch write (.setting record found e) (.set true) none (some record)
  | unwritten {record : Record} {found : Bool} {e : Nat} :
      Step stored epoch write (.setting record found e) (.set false) none none

/-- A call that updates to a status carries that status. -/
def Call.Carries (status : Status) : Call → Prop
  | .setting record _ _ => record.status = status
  | .getting => True

namespace Call

variable {stored : Option Record} {epoch : Nat} {write : Option Record → Record} {now : Time}
  {status : Status} {call : Call} {command : Command} {call' : Option Call} {r : Option Record}

theorem Step.of_step (h : call.step stored epoch write command = some (call', r)) :
    Step stored epoch write call command call' r := by
  unfold step at h
  split at h
  case h_1 => cases h; exact .read
  case h_2 => cases h; exact .unread
  case h_3 => cases h; exact .wrote
  case h_4 => cases h; exact .unwritten
  case h_5 => cases h

theorem updateRecord_status (found : Option Record) :
    (updateRecord status now found).status = status := by
  cases found <;> rfl

/-- An update goes on carrying its status, and stores a record with it. -/
theorem Step.carries (h : Step stored epoch (updateRecord status now) call command call' r)
    (hc : call.Carries status) :
    (∀ c ∈ call', c.Carries status) ∧ ∀ record ∈ r, record.status = status := by
  cases h with
  | read =>
      constructor
      · rintro _ ⟨⟩
        exact updateRecord_status stored
      · intro _ h
        cases h
  | wrote =>
      constructor
      · intro _ h
        cases h
      · rintro _ ⟨⟩
        exact hc
  | unread | unwritten =>
      constructor
      · intro _ h
        cases h
      · intro _ h
        cases h

end Call

/-! ## The invariant -/

namespace State

/-- How the status that a heartbeat carries stands to the newest one stored. -/
def Tracks (s : State) : Call → Prop
  | .getting => True
  | .setting record true epoch => epoch ≤ s.epoch ∧ ∃ newest ∈ s.log.head?,
      record.status.rank ≤ newest.rank ∧ (epoch = s.epoch ↔ record.status = newest)
  | .setting record false _ => record.status = .ready

/-- The statuses are in their order, and the calls in flight carry what is expected of them. -/
structure Tracked (s : State) : Prop where
  forward : s.Forward
  stored : ∀ record ∈ s.stored, record.status ∈ s.log.head?
  heartbeats : ∀ i, ∀ call ∈ s.heartbeats i, s.Tracks call
  /-- The heartbeats start after the registration. -/
  beforeStart : s.startup ≠ .started → s.timer = false ∧ ∀ i, s.heartbeats i = none
  publishing : ∀ call, s.startup = .publishing call → call.Carries .ready
  draining : ∀ hasWorker call, s.shutdown = .draining hasWorker call → call.Carries .draining
  stopping : ∀ call, s.shutdown = .stopping call → call.Carries .stopped
  stopped : .stopped ∈ s.log → s.shutdown = .over

variable {s t : State} {record : Record} {call : Call} {l : Label} {newest old : Status}

/-- The newest status is the greatest. -/
theorem Forward.le_newest (h : s.Forward) (hn : newest ∈ s.log.head?) (ho : old ∈ s.log) :
    old.rank ≤ newest.rank := by
  unfold Forward at h
  cases hlog : s.log with
  | nil => rw [hlog] at ho; cases ho
  | cons a rest =>
      rw [hlog] at h hn ho
      cases hn
      cases ho with
      | head => exact Nat.le_refl _
      | tail _ ho => exact List.rel_of_pairwise_cons h ho

/-- A record keeps the order exactly if no greater status has been stored. -/
theorem forward_store_iff (h : s.Forward) :
    (s.store record).Forward ↔ ∀ old ∈ s.log, old.rank ≤ record.status.rank :=
  List.pairwise_cons.trans (and_iff_left h)

theorem upTo_ready_iff :
    (∀ old ∈ s.log, old.rank ≤ Status.ready.rank) ↔ ¬ s.Leaving := by
  simp only [Status.rank_le_ready, Leaving, not_or]
  constructor
  · intro h
    exact ⟨fun hd ↦ (h _ hd).1 rfl, fun hs ↦ (h _ hs).2 rfl⟩
  · rintro ⟨hd, hs⟩ old hold
    exact ⟨fun h ↦ hd (h ▸ hold), fun h ↦ hs (h ▸ hold)⟩

/-- A heartbeat is still tracked when another status is stored. -/
theorem Tracks.store (h : s.Tracks call) (hr : ∀ old ∈ s.log, old.rank ≤ record.status.rank) :
    (s.store record).Tracks call := by
  unfold Tracks at h ⊢
  split
  case h_1 => trivial
  case h_3 => exact h
  case h_2 mine epoch =>
    obtain ⟨hle, newest, hn, hrank, hiff⟩ := h
    have hnew : newest.rank ≤ record.status.rank := hr newest (List.mem_of_mem_head? hn)
    have hhead : s.log.head? = some newest := hn
    by_cases heq : newest = record.status
    · have he : (s.store record).epoch = s.epoch := if_pos (by rw [hhead, heq])
      refine ⟨he ▸ hle, record.status, rfl, heq ▸ hrank, ?_⟩
      rw [he, hiff, heq]
    · have he : (s.store record).epoch = s.epoch + 1 :=
        if_neg fun h ↦ heq (Option.some.inj (hhead ▸ h))
      rw [he]
      refine ⟨Nat.le_succ_of_le hle, record.status, rfl, Nat.le_trans hrank hnew, ?_⟩
      constructor
      · intro h
        rw [h] at hle
        exact absurd hle (Nat.not_succ_le_self _)
      · intro h
        rw [h] at hrank
        exact absurd (Status.rank_injective (Nat.le_antisymm hnew hrank)) heq

/-- The invariant after a SET that keeps the order. -/
theorem Tracked.store (hs : s.Tracked) (hr : ∀ old ∈ s.log, old.rank ≤ record.status.rank)
    (hstop : record.status = .stopped → s.shutdown = .over) : (s.store record).Tracked where
  forward := (forward_store_iff hs.forward).mpr hr
  stored := by
    rintro _ ⟨⟩
    rfl
  heartbeats i call hc := (hs.heartbeats i call hc).store hr
  beforeStart := hs.beforeStart
  publishing := hs.publishing
  draining := hs.draining
  stopping := hs.stopping
  stopped h := (List.mem_cons.mp h).elim (fun h ↦ hstop h.symm) hs.stopped

/-- What a step comes to: a tracked state, with at most one SET on top of it, which keeps the
order exactly if the step is `Ordered`. -/
inductive Effect (s : State) (l : Label) : State → Prop
  | silent {t : State} (ht : t.Tracked) (ho : Ordered s l) : Effect s l t
  | set {t : State} {record : Record} (ht : t.Tracked)
      (hstop : record.status = .stopped → t.shutdown = .over)
      (ho : (∀ old ∈ t.log, old.rank ≤ record.status.rank) ↔ Ordered s l) :
      Effect s l (t.store record)

/-- The effect of an update to a status: a command of its call, in a state `t call` that
is where the process stands with the call, or with the call being over. -/
theorem Effect.update {status : Status} {command : Command} {t : Option Call → State}
    {t' : State} (hcall : call.Carries status)
    (h : ((s.update status call command).map fun x ↦ (t x.1).storeAll x.2) = some t')
    (ht : ∀ c, (∀ call ∈ c, call.Carries status) → (t c).Tracked)
    (hstop : status = .stopped → (t none).shutdown = .over) (hlog : (t none).log = s.log)
    (hsilent : command ≠ .set true → Ordered s l)
    (hset : command = .set true → ((∀ old ∈ s.log, old.rank ≤ status.rank) ↔ Ordered s l)) :
    Effect s l t' := by
  obtain ⟨⟨call', r⟩, hx, rfl⟩ := Option.map_eq_some_iff.mp h
  have hstep := Call.Step.of_step hx
  obtain ⟨hcarries, hstatus⟩ := hstep.carries hcall
  cases hstep with
  | read | unread | unwritten => exact .silent (ht _ hcarries) (hsilent nofun)
  | @wrote record =>
      have hr : record.status = status := hstatus record rfl
      refine .set (ht _ hcarries) (hr ▸ hstop) ?_
      rw [hlog, hr]
      exact hset rfl

/-- The invariant with what becomes of a heartbeat. -/
theorem Tracked.setHeartbeat {i : Nat} {c : Option Call} (hs : s.Tracked)
    (hc : ∀ call ∈ c, s.Tracks call) (hst : c ≠ none → s.startup = .started) :
    { s with heartbeats := Function.update s.heartbeats i c }.Tracked := by
  refine { hs with heartbeats := ?_, beforeStart := ?_ }
  · intro j call hj
    by_cases hij : j = i
    · subst hij
      exact hc call (Function.update_self j c s.heartbeats ▸ hj)
    · exact hs.heartbeats j call (Function.update_of_ne hij c s.heartbeats ▸ hj)
  · intro hne
    obtain ⟨htimer, hnone⟩ := hs.beforeStart hne
    refine ⟨htimer, fun j ↦ ?_⟩
    by_cases hij : j = i
    · subst hij
      refine (Function.update_self j c s.heartbeats).trans ?_
      by_contra hsome
      exact hne (hst hsome)
    · exact (Function.update_of_ne hij c s.heartbeats).trans (hnone j)

/-- A heartbeat is tracked after its GET. -/
theorem Tracked.tracks_read (hs : s.Tracked) :
    s.Tracks (.setting (heartbeatRecord s.now s.stored) s.stored.isSome s.epoch) := by
  cases hr : s.stored with
  | none => rfl
  | some record =>
      exact ⟨Nat.le_refl _, record.status, hs.stored record hr, Nat.le_refl _, fun _ ↦ rfl,
        fun _ ↦ rfl⟩

section Tracks

variable {found : Bool} {epoch : Nat}

/-- A heartbeat does not come up with STOPPED. -/
theorem Tracks.stopped_mem (h : s.Tracks (.setting record found epoch))
    (hstop : record.status = .stopped) : .stopped ∈ s.log := by
  cases found with
  | false => exact absurd (hstop.symm.trans h) nofun
  | true =>
      obtain ⟨-, newest, hn, hrank, -⟩ := h
      rw [hstop] at hrank
      have heq : newest = .stopped :=
        Status.rank_injective (Nat.le_antisymm (Status.rank_le_stopped newest) hrank)
      exact heq ▸ List.mem_of_mem_head? hn

/-- The SET of a heartbeat keeps the order exactly if it is up to date. -/
theorem Forward.upToDate_iff (hs : s.Forward) (h : s.Tracks (.setting record found epoch)) :
    (∀ old ∈ s.log, old.rank ≤ record.status.rank) ↔ s.UpToDate (.setting record found epoch) := by
  cases found with
  | false =>
      have hready : record.status = .ready := h
      rw [hready]
      exact upTo_ready_iff
  | true =>
      obtain ⟨-, newest, hn, hrank, hiff⟩ := h
      refine Iff.trans ?_ hiff.symm
      constructor
      · intro hr
        have hge := hr newest (List.mem_of_mem_head? hn)
        exact Status.rank_injective (Nat.le_antisymm hrank hge)
      · intro heq old hold
        exact heq ▸ hs.le_newest hn hold

theorem ordered_heartbeat {i : Nat} (hi : s.heartbeats i = some call) :
    Ordered s (.heartbeat i (.set true)) ↔ s.UpToDate call := by
  show (∀ call ∈ s.heartbeats i, s.UpToDate call) ↔ s.UpToDate call
  rw [hi]
  constructor
  · exact fun h ↦ h call rfl
  · rintro h _ ⟨⟩
    exact h

end Tracks

section Effects

variable {command : Command}

/-- STOPPED is stored by the last call of `shutdown`. -/
theorem Tracked.not_stopped (hs : s.Tracked) (hsh : s.shutdown ≠ .over) : .stopped ∉ s.log :=
  fun h ↦ hsh (hs.stopped h)

/-- A registration starts the log again. -/
theorem Tracked.effect_register {concurrency : Nat} {ok : Bool} (hs : s.Tracked)
    (h : s.step (.register concurrency ok) = some t) : Effect s (.register concurrency ok) t := by
  simp only [step] at h
  split at h
  case h_2 => cases h
  case h_1 hst =>
    obtain ⟨htimer, hnone⟩ := hs.beforeStart (by rw [hst]; nofun)
    cases h
    cases ok with
    | false =>
        exact .silent { hs with
          beforeStart := fun _ ↦ ⟨htimer, hnone⟩
          publishing := nofun } trivial
    | true =>
        -- no heartbeat is in flight yet, so nothing is held against the new log
        let blank : State := { s with log := [], stored := none, startup := .initializing }
        show Effect s _ (blank.store (registered s.now concurrency))
        refine .set ?_ nofun ⟨fun _ ↦ trivial, fun _ ↦ nofun⟩
        exact {
          forward := .nil
          stored := nofun
          heartbeats := fun i call hc ↦ by rw [hnone i] at hc; cases hc
          beforeStart := fun _ ↦ ⟨htimer, hnone⟩
          publishing := nofun
          draining := hs.draining
          stopping := hs.stopping
          stopped := nofun }

/-- The update to READY keeps the order while the worker is not leaving. -/
theorem Tracked.effect_publish (hs : s.Tracked) (h : s.step (.publish command) = some t) :
    Effect s (.publish command) t := by
  simp only [step] at h
  split at h
  case h_2 => cases h
  case h_1 call hst =>
    have hbefore := hs.beforeStart (by rw [hst]; nofun)
    apply Effect.update (hs.publishing call hst) h
    · intro c hc
      cases c with
      | none => exact { hs with beforeStart := fun h ↦ absurd rfl h, publishing := nofun }
      | some call =>
          refine { hs with beforeStart := fun _ ↦ hbefore, publishing := ?_ }
          rintro _ ⟨⟩
          exact hc call rfl
    · nofun
    · rfl
    · exact ordered_publish
    · rintro rfl
      exact upTo_ready_iff

/-- A heartbeat keeps the order if it is up to date. -/
theorem Tracked.effect_heartbeat {i : Nat} (hs : s.Tracked)
    (h : s.step (.heartbeat i command) = some t) : Effect s (.heartbeat i command) t := by
  simp only [step] at h
  obtain ⟨call, hi, h⟩ := Option.bind_eq_some_iff.mp h
  obtain ⟨⟨call', r⟩, hx, rfl⟩ := Option.map_eq_some_iff.mp h
  have hstarted : s.startup = .started := by
    by_contra hst
    exact absurd (((hs.beforeStart hst).2 i).symm.trans hi) nofun
  have hover : (∀ call ∈ (none : Option Call), s.Tracks call) := nofun
  cases Call.Step.of_step hx with
  | read =>
      refine .silent (hs.setHeartbeat ?_ fun _ ↦ hstarted) trivial
      rintro _ ⟨⟩
      exact hs.tracks_read
  | unread | unwritten => exact .silent (hs.setHeartbeat hover fun _ ↦ hstarted) trivial
  | @wrote record found epoch =>
      have htracks := hs.heartbeats i _ hi
      refine .set (hs.setHeartbeat hover fun _ ↦ hstarted) ?_ ?_
      · intro hstop
        exact hs.stopped (htracks.stopped_mem hstop)
      · exact (hs.forward.upToDate_iff htracks).trans (ordered_heartbeat hi).symm

/-- The update to DRAINING comes before STOPPED. -/
theorem Tracked.effect_drain (hs : s.Tracked) (h : s.step (.drain command) = some t) :
    Effect s (.drain command) t := by
  simp only [step] at h
  split at h
  case h_2 => cases h
  case h_1 hasWorker call hsh =>
    have hnot : .stopped ∉ s.log := hs.not_stopped (by rw [hsh]; nofun)
    apply Effect.update (hs.draining hasWorker call hsh) h
    · intro c hc
      cases c with
      | none =>
          refine { hs with draining := ?_, stopping := ?_, stopped := fun h ↦ absurd h hnot }
          · cases hasWorker <;> nofun
          · cases hasWorker <;> nofun
      | some call =>
          refine { hs with draining := ?_, stopping := nofun, stopped := fun h ↦ absurd h hnot }
          rintro _ _ ⟨⟩
          exact hc call rfl
    · nofun
    · rfl
    · exact fun _ ↦ trivial
    · refine fun _ ↦ ⟨fun _ ↦ trivial, fun _ old hold ↦ ?_⟩
      exact Status.rank_le_draining.mpr fun h ↦ hnot (h ▸ hold)

/-- Nothing comes after STOPPED. -/
theorem Tracked.effect_stop (hs : s.Tracked) (h : s.step (.stop command) = some t) :
    Effect s (.stop command) t := by
  simp only [step] at h
  split at h
  case h_2 => cases h
  case h_1 call hsh =>
    have hnot : .stopped ∉ s.log := hs.not_stopped (by rw [hsh]; nofun)
    apply Effect.update (hs.stopping call hsh) h
    · intro c hc
      cases c with
      | none => exact { hs with draining := nofun, stopping := nofun, stopped := fun _ ↦ rfl }
      | some call =>
          refine { hs with draining := nofun, stopping := ?_, stopped := fun h ↦ absurd h hnot }
          rintro _ ⟨⟩
          exact hc call rfl
    · exact fun _ ↦ rfl
    · rfl
    · exact fun _ ↦ trivial
    · exact fun _ ↦ ⟨fun _ ↦ trivial, fun _ old _ ↦ Status.rank_le_stopped old⟩

/-- Every step from a tracked state has such an effect. -/
theorem Tracked.effect (hs : s.Tracked) (h : s.step l = some t) : Effect s l t := by
  cases l with
  | wait d =>
      cases h
      exact .silent { hs with } trivial
  | expire =>
      cases h
      exact .silent { hs with stored := by simp } trivial
  | register concurrency ok => exact hs.effect_register h
  | initialized ok =>
      simp only [step] at h
      split at h
      case h_2 => cases h
      case h_1 hst =>
        cases h
        refine .silent { hs with beforeStart := fun _ ↦ ?_, publishing := ?_ } trivial
        · exact hs.beforeStart (by rw [hst]; nofun)
        · cases ok with
          | false => nofun
          | true => rintro _ ⟨⟩; trivial
  | publish command => exact hs.effect_publish h
  | tick i =>
      simp only [step] at h
      split at h
      case isFalse => cases h
      case isTrue hidle =>
        cases h
        refine .silent (hs.setHeartbeat (c := some .getting) ?_ ?_) trivial
        · rintro _ ⟨⟩
          trivial
        · intro _
          by_contra hst
          exact absurd ((hs.beforeStart hst).1.symm.trans hidle.1) nofun
  | heartbeat i command => exact hs.effect_heartbeat h
  | shutdown =>
      simp only [step] at h
      split at h
      case h_2 => cases h
      case h_1 hsh =>
        cases h
        refine .silent { hs with draining := ?_, stopping := nofun, stopped := ?_ } trivial
        · rintro _ _ ⟨⟩
          trivial
        · exact fun h ↦ absurd h (hs.not_stopped (by rw [hsh]; nofun))
  | drain command => exact hs.effect_drain h
  | paused =>
      simp only [step] at h
      split at h
      case h_2 => cases h
      case h_1 hsh =>
        cases h
        refine .silent { hs with
          beforeStart := fun hst ↦ ⟨rfl, (hs.beforeStart hst).2⟩
          draining := nofun
          stopping := nofun
          stopped := ?_ } trivial
        exact fun h ↦ absurd h (hs.not_stopped (by rw [hsh]; nofun))
  | closed =>
      simp only [step] at h
      split at h
      case h_2 => cases h
      case h_1 hsh =>
        cases h
        refine .silent { hs with draining := nofun, stopping := ?_, stopped := ?_ } trivial
        · rintro _ ⟨⟩
          trivial
        · exact fun h ↦ absurd h (hs.not_stopped (by rw [hsh]; nofun))
  | stop command => exact hs.effect_stop h

end Effects

/-- An effect keeps the order exactly if the step is `Ordered`. -/
theorem Effect.forward_iff (h : Effect s l t) : t.Forward ↔ Ordered s l := by
  cases h with
  | silent ht ho => exact iff_of_true ht.forward ho
  | set ht _ ho => exact (forward_store_iff ht.forward).trans ho

/-- A step that is `Ordered` keeps the invariant. -/
theorem Effect.tracked (h : Effect s l t) (hok : Ordered s l) : t.Tracked := by
  cases h with
  | silent ht _ => exact ht
  | set ht hstop ho => exact ht.store (ho.mpr hok) hstop

theorem tracked_init : init.Tracked where
  forward := .nil
  stored := nofun
  heartbeats _ _ := nofun
  beforeStart _ := ⟨rfl, fun _ ↦ rfl⟩
  publishing := nofun
  draining := nofun
  stopping := nofun
  stopped := nofun

end State

/-! ## The runs -/

variable {s t : State} {l : Label}

theorem tracked_of_reachable (h : registry.Reachable Ordered s) : s.Tracked :=
  h.invariant State.tracked_init fun _ _ _ hs hok hstep ↦ (hs.effect hstep).tracked hok

/-- **The statuses keep their order** in every run whose steps are all `Ordered`; and a step
that is not breaks the order, the first time it is taken. -/
theorem statuses_forward (h : registry.Reachable Ordered s) :
    s.Forward ∧ ∀ l t, registry.step s l = some t → (t.Forward ↔ Ordered s l) := by
  have hs := tracked_of_reachable h
  constructor
  · exact hs.forward
  · intro l t hstep
    exact (hs.effect hstep).forward_iff

/-! ## A worker that comes back -/

/-- `startWorker`. -/
def Label.start : List Label :=
  [.register 2 true, .initialized true, .publish (.get true), .publish (.set true)]

/-- A shutdown up to its last SET, with a heartbeat before it and one that comes to nothing. -/
def Label.quiet : List Label :=
  start ++ [.tick 0, .heartbeat 0 (.get true), .heartbeat 0 (.set true), .shutdown,
    .drain (.get true), .tick 0, .heartbeat 0 (.get true), .drain (.set true),
    .heartbeat 0 (.set false), .paused, .closed, .stop (.get true)]

/-- A worker that is registered, started, shut down and stopped. -/
theorem statuses_forward_quiet : ∃ s t, registry.Reachable Ordered s ∧ s.Forward ∧
    registry.step s (.stop (.set true)) = some t ∧ t.Forward ∧
    t.log = [.stopped, .draining, .ready, .ready, .starting] := by
  obtain ⟨s, hrun, hstop⟩ := registry.exists_run_of_exec Ordered State.init Label.quiet
    (fun s ↦ (registry.step s (.stop (.set true))).any fun t ↦
      t.log = [.stopped, .draining, .ready, .ready, .starting]) (by decide)
  obtain ⟨t, ht, hlog⟩ := (Option.any_eq_true _ _).mp hstop
  obtain ⟨hforward, hstep⟩ := statuses_forward ⟨_, hrun⟩
  exact ⟨s, t, ⟨_, hrun⟩, hforward, ht, (hstep _ t ht).mpr trivial, of_decide_eq_true hlog⟩

/-- Between the GET and the SET of the update to DRAINING, a heartbeat reads READY. -/
def Label.comeback : List Label :=
  start ++ [.shutdown, .drain (.get true), .tick 0, .heartbeat 0 (.get true),
    .drain (.set true), .heartbeat 0 (.set true)]

/-- A worker that has published DRAINING is READY again. -/
theorem statuses_backwards : ∃ s, registry.Reachable Machine.anyStep s ∧ ¬ s.Forward ∧
    s.log = [.ready, .draining, .ready, .starting] := by
  obtain ⟨s, hrun, hlog⟩ := registry.exists_run_of_exec Machine.anyStep State.init Label.comeback
    (fun s ↦ s.log = [.ready, .draining, .ready, .starting]) (by decide)
  have hlog := of_decide_eq_true hlog
  refine ⟨s, ⟨_, hrun⟩, ?_, hlog⟩
  unfold State.Forward
  rw [hlog]
  decide

end CodeArena.Workers
