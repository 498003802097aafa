import Declaragent.Library.Async
import Declaragent.Events.Requeue

/-!
# Events — requeues of one dead letter at once

Any number of calls of `requeue` for one event id, each of which gives the processor away while it
waits for the dead letter, for the body of the event, for the dispatch of its clone and for the
delete of the dead letter.  The dispatcher writes to the store meanwhile, and an operator may
drop the dead letter.

A call reads the dead letter first and deletes it last, and whoever reads in between finds it
still.

* `Claimed.step`: while no call finds the dead letter that another has found, one call holds it.
* `requeue_exactly_once` is what the calls come to then, and `both_publish` what they do else.
-/

namespace Declaragent.Events
open Async Transition

/-! ### The calls -/

/-- The control point of a call: what it has read, and what its publish comes to. -/
inductive RequeueLoc where
  | ready
  | looked (rejection : Option EventRejectionRecord)
  | fetched (rejection : EventRejectionRecord) (row : Option EventStoreRecord)
  | publishing (rejection : EventRejectionRecord)
      (result : Except String (Option DispatchOutcome))
  | acknowledged (result : RequeueResult)
  | ended (result : Except String RequeueResult)

inductive RequeueAct where
  /-- What the call waited for is there. -/
  | resume
  /-- The clone is dispatched or published, with what that comes to. -/
  | publish (result : Except String (Option DispatchOutcome)) (now : Int)

/-- What others write to the store.  The dispatcher rejects and clears other events: this one it
has handled already. -/
inductive RequeueEnv where
  | drop
  | record (event : AgentEvent) (now : Int)
  | mark (id : String) (outcome : DispatchOutcome) (now : Int)
  | reject (id : String) (reason : RejectReason) (details : Option String) (now : Int)
  | clear (id : String)

/-- The store, the clones that were published and by which call, and whether the dead letter was
dropped. -/
structure DeadLetters (ι : Type) where
  store : EventStore
  published : List (ι × AgentEvent) := []
  dropped : Bool := false

section
variable {ι : Type} (eventId : String) (newId : ι → String)

def requeueTask (i : ι) (sh : DeadLetters ι) :
    RequeueLoc → RequeueAct → Option (DeadLetters ι × RequeueLoc)
  | .ready, .resume => some (sh, .looked (sh.store.getRejection eventId))
  | .looked none, .resume =>
    some (sh, .ended (.ok (.dlqMiss eventId ("no dispatch DLQ entry for \"" ++ eventId ++
      "\" — already requeued or never rejected"))))
  | .looked (some rejection), .resume => some (sh, .fetched rejection (sh.store.get eventId))
  | .fetched _ none, .resume =>
    some (sh, .ended (.ok (.eventMiss eventId ("event \"" ++ eventId ++
      "\" is in the DLQ but its body is no longer in the events table (vacuumed?)"))))
  | .fetched rejection (some row), .publish result now =>
    match result with
    | .ok _ =>
      let requeued := cloneEvent row.event (newId i) now
      some ({ sh with published := sh.published ++ [(i, requeued)] },
        .publishing rejection result)
    | .error _ => some (sh, .publishing rejection result)
  | .publishing rejection (.ok outcome), .resume =>
    some ({ sh with store := sh.store.deleteRejection eventId },
      .acknowledged (.ok eventId (newId i) rejection.attemptCount outcome))
  | .publishing _ (.error err), .resume => some (sh, .ended (.error err))
  | .acknowledged result, .resume => some (sh, .ended (.ok result))
  | _, _ => none

def requeueEnv (sh : DeadLetters ι) : RequeueEnv → Option (DeadLetters ι)
  | .drop => some { sh with store := sh.store.deleteRejection eventId, dropped := true }
  | .record event now => some { sh with store := recordEvent sh.store event now }
  | .mark id outcome now => some { sh with store := sh.store.markOutcome id outcome now }
  | .reject id reason details now =>
    if id = eventId then none
    else some { sh with store := sh.store.upsertRejection id reason details now }
  | .clear id =>
    if id = eventId then none else some { sh with store := sh.store.deleteRejection id }

def requeueSystem : System ι (DeadLetters ι) RequeueLoc RequeueAct RequeueEnv where
  task := requeueTask eventId newId
  env := requeueEnv eventId

def requeueInit (store : EventStore) : State ι (DeadLetters ι) RequeueLoc :=
  ⟨{ store := store }, fun _ => .ready⟩

end

/-! ### What is claimed of them -/

/-- The call has found the dead letter and not yet done with it. -/
def RequeueLoc.InFlight : RequeueLoc → Prop
  | .looked (some _) | .fetched _ _ | .publishing _ _ => True
  | _ => False

/-- The call has published its clone. -/
def RequeueLoc.Published : RequeueLoc → Prop
  | .publishing _ (.ok _) | .acknowledged _ | .ended (.ok (.ok ..)) => True
  | _ => False

/-- The publish of the call failed, and it threw. -/
def RequeueLoc.Failed : RequeueLoc → Prop
  | .ended (.error _) => True
  | _ => False

/-- The call has found the dead letter. -/
def RequeueLoc.Found (l : RequeueLoc) : Prop := l.InFlight ∨ l.Published ∨ l.Failed

section
variable {ι : Type} (eventId : String)

/-- The dead letter is in the queue. -/
def DeadLetters.Present (sh : DeadLetters ι) : Prop := (sh.store.getRejection eventId).isSome

/-- The call has published a clone. -/
def DeadLetters.By (sh : DeadLetters ι) (i : ι) : Prop := i ∈ sh.published.map Prod.fst

/-- At most one call publishes.  A call ends by publishing, with a miss or by throwing; where it
throws, the dead letter is still there unless it was dropped or another call has published it
since.  When all calls have ended and none has thrown, exactly one has published and every other
returned a miss. -/
structure RequeuedOnce (s : State ι (DeadLetters ι) RequeueLoc) : Prop where
  once : s.shared.published.length ≤ 1
  failed : ∀ i err, s.loc i = .ended (.error err) → ¬ s.shared.By i ∧
    (s.shared.Present eventId ∨ s.shared.dropped = true ∨ s.shared.published ≠ [])
  ended : Nonempty ι → (∀ i, ∃ result, s.loc i = .ended (.ok result)) →
    ∃ i clone, s.shared.published = [(i, clone)] ∧
      (∃ newEventId attempts outcome,
        s.loc i = .ended (.ok (.ok eventId newEventId attempts outcome))) ∧
      ∀ j, j ≠ i → ∃ message, s.loc j = .ended (.ok (.dlqMiss eventId message))

/-- No call finds the dead letter while another holds it, and it is dropped only once a call has
found it. -/
def Unshared (s : State ι (DeadLetters ι) RequeueLoc) : Label ι RequeueAct RequeueEnv → Prop
  | .task i .resume => s.loc i = .ready → s.shared.Present eventId → ∀ j, ¬ (s.loc j).InFlight
  | .env .drop => ∃ i, (s.loc i).Found
  | _ => True

end

/-! ### The claim on a dead letter -/

section
variable {ι : Type} [DecidableEq ι] {eventId : String} {newId : ι → String}

/-- What a call has read fits what it finds. -/
def RequeueLoc.Reads (eventId : String) (sh : DeadLetters ι) : RequeueLoc → Prop
  | .looked none => ¬ sh.Present eventId
  | .fetched _ none => False
  | .acknowledged result => ∃ newEventId attempts outcome,
      result = .ok eventId newEventId attempts outcome
  | .ended (.ok result) =>
    (∃ newEventId attempts outcome, result = .ok eventId newEventId attempts outcome) ∨
      (∃ message, result = .dlqMiss eventId message) ∧ ¬ sh.Present eventId
  | _ => True

omit [DecidableEq ι] in
/-- What was read still fits: a dead letter does not come back. -/
theorem RequeueLoc.Reads.mono {sh sh' : DeadLetters ι} {l : RequeueLoc}
    (h : l.Reads eventId sh) (hp : sh'.Present eventId → sh.Present eventId) :
    l.Reads eventId sh' := by
  cases l with
  | looked rejection =>
    cases rejection with
    | none => exact fun hp' => h (hp hp')
    | some rejection => trivial
  | ready => trivial
  | fetched rejection row =>
    cases row with
    | none => exact h
    | some row => trivial
  | publishing rejection result => trivial
  | acknowledged result => exact h
  | ended result =>
    cases result with
    | error err => trivial
    | ok result => exact h.imp_right fun hmiss => ⟨hmiss.1, fun hp' => hmiss.2 (hp hp')⟩

/-- One call at most holds the dead letter, and no other once one has published. -/
structure Claimed (eventId : String) (s : State ι (DeadLetters ι) RequeueLoc) : Prop where
  body : (s.shared.store.get eventId).isSome
  reads : ∀ i, (s.loc i).Reads eventId s.shared
  alone : ∀ i j, (s.loc i).InFlight → (s.loc j).InFlight → i = j
  by_iff : ∀ i, s.shared.By i ↔ (s.loc i).Published
  once : s.shared.published.length ≤ 1
  exclusive : ∀ i j, s.shared.By i → (s.loc j).InFlight → j = i
  held : ∀ i, s.shared.By i → s.shared.Present eventId → (s.loc i).InFlight
  absent : ¬ s.shared.Present eventId →
    (s.shared.dropped = true ∨ s.shared.published ≠ []) ∧ ∃ i, (s.loc i).Found

variable {s t : State ι (DeadLetters ι) RequeueLoc} {i : ι} {l : RequeueLoc}

omit [DecidableEq ι] in
/-- Beside a call in flight no other is, and none has published. -/
theorem Claimed.apart (h : Claimed eventId s) (hi : (s.loc i).InFlight) :
    ∀ j, j ≠ i → ¬ (s.loc j).InFlight ∧ ¬ s.shared.By j :=
  fun j hne => ⟨fun hj => hne (h.alone j i hj hi), fun hj => hne (h.exclusive j i hj hi).symm⟩

/-- A call goes on without a write. -/
theorem Claimed.move (h : Claimed eventId s) (hreads : l.Reads eventId s.shared)
    (hpublished : l.Published ↔ (s.loc i).Published) (hfound : (s.loc i).Found → l.Found)
    (hflight : l.InFlight → ∀ j, j ≠ i → ¬ (s.loc j).InFlight ∧ ¬ s.shared.By j)
    (hheld : s.shared.By i → s.shared.Present eventId → l.InFlight) :
    Claimed eventId (s.move i s.shared l) where
  body := h.body
  reads j := by
    by_cases hj : j = i
    · subst hj
      rw [State.move_loc_self]
      exact hreads
    · rw [State.move_loc_of_ne s hj]
      exact h.reads j
  alone j k hj hk := by
    by_cases hji : j = i <;> by_cases hki : k = i
    · rw [hji, hki]
    · subst hji
      rw [State.move_loc_self] at hj
      rw [State.move_loc_of_ne s hki] at hk
      exact absurd hk (hflight hj k hki).1
    · subst hki
      rw [State.move_loc_self] at hk
      rw [State.move_loc_of_ne s hji] at hj
      exact absurd hj (hflight hk j hji).1
    · rw [State.move_loc_of_ne s hji] at hj
      rw [State.move_loc_of_ne s hki] at hk
      exact h.alone j k hj hk
  by_iff j := by
    by_cases hj : j = i
    · subst hj
      rw [State.move_loc_self, hpublished]
      exact h.by_iff j
    · rw [State.move_loc_of_ne s hj]
      exact h.by_iff j
  once := h.once
  exclusive j k hj hk := by
    by_cases hki : k = i
    · subst hki
      rw [State.move_loc_self] at hk
      by_contra hne
      exact (hflight hk j fun e => hne e.symm).2 hj
    · rw [State.move_loc_of_ne s hki] at hk
      exact h.exclusive j k hj hk
  held j hj hp := by
    by_cases hji : j = i
    · subst hji
      rw [State.move_loc_self]
      exact hheld hj hp
    · rw [State.move_loc_of_ne s hji]
      exact h.held j hj hp
  absent hp := by
    obtain ⟨hwhy, k, hk⟩ := h.absent hp
    refine ⟨hwhy, k, ?_⟩
    by_cases hki : k = i
    · subst hki
      rw [State.move_loc_self]
      exact hfound hk
    · rwa [State.move_loc_of_ne s hki]

/-- A call in flight goes on, and stays in flight or fails. -/
theorem Claimed.move_inFlight (h : Claimed eventId s) (hi : (s.loc i).InFlight)
    (hnot : ¬ (s.loc i).Published) (hreads : l.Reads eventId s.shared)
    (hpublished : ¬ l.Published) (hl : l.InFlight ∨ l.Failed) :
    Claimed eventId (s.move i s.shared l) :=
  h.move hreads (iff_of_false hpublished hnot) (fun _ => hl.imp_right Or.inr)
    (fun _ => h.apart hi) fun hby => absurd ((h.by_iff i).mp hby) hnot

/-- **The clone is published** by the one call in flight. -/
theorem Claimed.publish (h : Claimed eventId s) {rejection : EventRejectionRecord}
    {row : Option EventStoreRecord} (hi : s.loc i = .fetched rejection row)
    (outcome : Option DispatchOutcome) (clone : AgentEvent) :
    Claimed eventId (s.move i { s.shared with published := s.shared.published ++ [(i, clone)] }
      (.publishing rejection (.ok outcome))) := by
  have hflight : (s.loc i).InFlight := by
    rw [hi]
    trivial
  have hapart := h.apart hflight
  have hnotby : ¬ s.shared.By i := by
    rw [h.by_iff, hi]
    exact not_false
  have hnone : s.shared.published = [] := by
    refine List.eq_nil_iff_forall_not_mem.mpr fun p hp => ?_
    have hby : s.shared.By p.1 := List.mem_map_of_mem hp
    by_cases he : p.1 = i
    · exact hnotby (he ▸ hby)
    · exact (hapart p.1 he).2 hby
  have hby : ∀ j, ({ s.shared with published := s.shared.published ++ [(i, clone)] } :
      DeadLetters ι).By j ↔ j = i := by
    intro j
    simp [DeadLetters.By, hnone]
  have hloc : ∀ j, j ≠ i → (s.move i { s.shared with
      published := s.shared.published ++ [(i, clone)] }
      (.publishing rejection (.ok outcome))).loc j = s.loc j := fun j hj =>
    State.move_loc_of_ne s hj _ _
  refine ⟨h.body, fun j => ?_, fun j k hj hk => ?_, fun j => ?_, by simp [hnone],
    fun j k hj hk => ?_, fun j hj _ => ?_, fun hp => ⟨Or.inr (by simp), i, ?_⟩⟩
  · by_cases hj : j = i
    · subst hj
      rw [State.move_loc_self]
      trivial
    · rw [hloc j hj]
      exact h.reads j
  · by_cases hji : j = i <;> by_cases hki : k = i
    · rw [hji, hki]
    · rw [hloc k hki] at hk
      exact absurd hk (hapart k hki).1
    · rw [hloc j hji] at hj
      exact absurd hj (hapart j hji).1
    · rw [hloc j hji] at hj
      exact absurd hj (hapart j hji).1
  · refine (hby j).trans ?_
    by_cases hj : j = i
    · subst hj
      rw [State.move_loc_self]
      exact iff_of_true rfl trivial
    · rw [hloc j hj, ← h.by_iff]
      exact iff_of_false hj (hapart j hj).2
  · obtain rfl := (hby j).mp hj
    by_contra hne
    rw [hloc k hne] at hk
    exact (hapart k hne).1 hk
  · obtain rfl := (hby j).mp hj
    rw [State.move_loc_self]
    trivial
  · rw [State.move_loc_self]
    exact Or.inl trivial

/-- **The dead letter is deleted** by the call that published. -/
theorem Claimed.acknowledge (h : Claimed eventId s) {rejection : EventRejectionRecord}
    {outcome : Option DispatchOutcome} (hi : s.loc i = .publishing rejection (.ok outcome))
    (newEventId : String) (attempts : Nat) :
    Claimed eventId (s.move i
      { s.shared with store := s.shared.store.deleteRejection eventId }
      (.acknowledged (.ok eventId newEventId attempts outcome))) := by
  have hflight : (s.loc i).InFlight := by
    rw [hi]
    trivial
  have hapart := h.apart hflight
  have hgone : ¬ ({ s.shared with store := s.shared.store.deleteRejection eventId } :
      DeadLetters ι).Present eventId := by
    simp [DeadLetters.Present, EventStore.getRejection_deleteRejection]
  have hbyi : s.shared.By i := by
    rw [h.by_iff, hi]
    trivial
  have hidle : ∀ j, ¬ ((s.move i
      { s.shared with store := s.shared.store.deleteRejection eventId }
      (.acknowledged (.ok eventId newEventId attempts outcome))).loc j).InFlight := by
    intro j hj
    by_cases he : j = i
    · subst he
      rw [State.move_loc_self] at hj
      exact hj
    · rw [State.move_loc_of_ne s he] at hj
      exact (hapart j he).1 hj
  refine ⟨by simpa using h.body, fun j => ?_, fun j k hj _ => absurd hj (hidle j), fun j => ?_,
    h.once, fun j k _ hk => absurd hk (hidle k), fun j _ hp => absurd hp hgone,
    fun _ => ⟨Or.inr ?_, i, ?_⟩⟩
  · by_cases hj : j = i
    · subst hj
      rw [State.move_loc_self]
      exact ⟨newEventId, attempts, outcome, rfl⟩
    · rw [State.move_loc_of_ne s hj]
      exact (h.reads j).mono fun hp => absurd hp hgone
  · by_cases hj : j = i
    · subst hj
      rw [State.move_loc_self]
      exact iff_of_true hbyi trivial
    · rw [State.move_loc_of_ne s hj]
      exact h.by_iff j
  · intro hnil
    have hmem : i ∈ s.shared.published.map Prod.fst := hbyi
    rw [State.move_shared] at hnil
    dsimp only at hnil
    rw [hnil] at hmem
    cases hmem
  · rw [State.move_loc_self]
    exact Or.inr (Or.inl trivial)

omit [DecidableEq ι] in
/-- Others write to the store: the body stays, and the dead letter goes only by a drop. -/
theorem Claimed.write (h : Claimed eventId s) {sh : DeadLetters ι}
    (hbody : (sh.store.get eventId).isSome) (hpublished : sh.published = s.shared.published)
    (hdropped : s.shared.dropped = true → sh.dropped = true)
    (hpresent : sh.Present eventId → s.shared.Present eventId)
    (habsent : s.shared.Present eventId → ¬ sh.Present eventId →
      sh.dropped = true ∧ ∃ i, (s.loc i).Found) :
    Claimed eventId { s with shared := sh } := by
  have hby : ∀ i, sh.By i ↔ s.shared.By i := fun i => by
    unfold DeadLetters.By
    rw [hpublished]
  refine ⟨hbody, fun i => (h.reads i).mono hpresent, h.alone, fun i => (hby i).trans (h.by_iff i),
    by rw [hpublished]; exact h.once, fun i j hi => h.exclusive i j ((hby i).mp hi),
    fun i hi hp => h.held i ((hby i).mp hi) (hpresent hp), fun hp => ?_⟩
  by_cases hbefore : s.shared.Present eventId
  · obtain ⟨hd, hfound⟩ := habsent hbefore hp
    exact ⟨Or.inl hd, hfound⟩
  · obtain ⟨hwhy, hfound⟩ := h.absent hbefore
    refine ⟨?_, hfound⟩
    rw [hpublished]
    exact hwhy.imp_left hdropped

omit [DecidableEq ι] in
theorem Claimed.env (h : Claimed eventId s) {e : RequeueEnv} {sh : DeadLetters ι}
    (hc : e = .drop → ∃ i, (s.loc i).Found) (hstep : requeueEnv eventId s.shared e = some sh) :
    Claimed eventId { s with shared := sh } := by
  cases e with
  | drop =>
    cases hstep
    refine h.write (by simpa using h.body) rfl (fun _ => rfl) (fun hp => ?_) fun _ _ =>
      ⟨rfl, hc rfl⟩
    simp [DeadLetters.Present, EventStore.getRejection_deleteRejection] at hp
  | record event now =>
    cases hstep
    have hsame : ({ s.shared with store := recordEvent s.shared.store event now } :
        DeadLetters ι).Present eventId ↔ s.shared.Present eventId := by
      simp [DeadLetters.Present]
    refine h.write ?_ rfl (fun hd => hd) hsame.mp fun hp hno => absurd (hsame.mpr hp) hno
    obtain ⟨row, hrow⟩ := Option.isSome_iff_exists.mp h.body
    exact Option.isSome_iff_exists.mpr ⟨row, get_recordEvent_of_some hrow⟩
  | mark id outcome now =>
    cases hstep
    refine h.write ?_ rfl (fun hd => hd) (fun hp => hp) fun hp hno => absurd hp hno
    rw [EventStore.get_markOutcome, Option.isSome_map]
    exact h.body
  | reject id reason details now =>
    simp only [requeueEnv] at hstep
    split at hstep
    · cases hstep
    · rename_i hne
      cases hstep
      have hsame : ({ s.shared with
          store := s.shared.store.upsertRejection id reason details now } :
          DeadLetters ι).Present eventId ↔ s.shared.Present eventId := by
        have hother : ¬ eventId = id := fun e => hne e.symm
        unfold DeadLetters.Present
        rw [← EventStore.isSome_attempts, ← EventStore.isSome_attempts,
          EventStore.attempts_upsertRejection, if_neg hother]
      exact h.write (by simpa using h.body) rfl (fun hd => hd) hsame.mp
        fun hp hno => absurd (hsame.mpr hp) hno
  | clear id =>
    simp only [requeueEnv] at hstep
    split at hstep
    · cases hstep
    · rename_i hne
      cases hstep
      have hother : ¬ eventId = id := fun e => hne e.symm
      have hsame : ({ s.shared with store := s.shared.store.deleteRejection id } :
          DeadLetters ι).Present eventId ↔ s.shared.Present eventId := by
        simp [DeadLetters.Present, EventStore.getRejection_deleteRejection, hother]
      exact h.write (by simpa using h.body) rfl (fun hd => hd) hsame.mp
        fun hp hno => absurd (hsame.mpr hp) hno

/-- **Each step that keeps the calls apart keeps the claim.** -/
theorem Claimed.step (h : Claimed eventId s) {a : Label ι RequeueAct RequeueEnv}
    (hc : Unshared eventId s a) (hstep : (requeueSystem eventId newId).step s a = some t) :
    Claimed eventId t := by
  cases a with
  | env e =>
    obtain ⟨sh, he, rfl⟩ := System.step_env hstep
    refine h.env (fun hdrop => ?_) he
    subst hdrop
    exact hc
  | task i a =>
    obtain ⟨sh, l, htask, rfl⟩ := System.step_task hstep
    have hreads := h.reads i
    change requeueTask eventId newId i s.shared (s.loc i) a = some (sh, l) at htask
    cases hl : s.loc i with
    | ready =>
      rw [hl] at htask
      cases a with
      | publish result now => cases htask
      | resume =>
        cases htask
        have hnot : ¬ s.shared.By i := by
          rw [h.by_iff, hl]
          exact not_false
        refine h.move ?_ ?_ ?_ ?_ fun hby => absurd hby hnot
        · cases hr : s.shared.store.getRejection eventId with
          | none => simp [RequeueLoc.Reads, DeadLetters.Present, hr]
          | some rejection => trivial
        · rw [hl]
          exact Iff.rfl
        · rw [hl]
          rintro (hf | hf | hf) <;> cases hf
        · intro hflight
          -- the call finds the dead letter, so no other holds it, nor has published
          have hp : s.shared.Present eventId := by
            unfold DeadLetters.Present
            cases hr : s.shared.store.getRejection eventId with
            | none => rw [hr] at hflight; cases hflight
            | some rejection => rfl
          have hidle := hc hl hp
          exact fun j _ => ⟨hidle j, fun hby => hidle j (h.held j hby hp)⟩
    | looked rejection =>
      rw [hl] at htask hreads
      cases a with
      | publish result now => cases rejection <;> cases htask
      | resume =>
        cases rejection with
        | none =>
          cases htask
          refine h.move (Or.inr ⟨⟨_, rfl⟩, hreads⟩) ?_ ?_ (fun hf => (by cases hf))
            fun hby => ?_
          · rw [hl]
            exact Iff.rfl
          · rw [hl]
            rintro (hf | hf | hf) <;> cases hf
          · rw [h.by_iff, hl] at hby
            cases hby
        | some rejection =>
          cases htask
          refine h.move_inFlight (by rw [hl]; trivial) (by rw [hl]; exact not_false) ?_
            not_false (Or.inl trivial)
          obtain ⟨row, hrow⟩ := Option.isSome_iff_exists.mp h.body
          rw [hrow]
          trivial
    | fetched rejection row =>
      rw [hl] at htask hreads
      cases row with
      | none => exact absurd hreads not_false
      | some row =>
        cases a with
        | resume => cases htask
        | publish result now =>
          cases result with
          | ok outcome =>
            cases htask
            exact h.publish hl outcome _
          | error err =>
            cases htask
            exact h.move_inFlight (by rw [hl]; trivial) (by rw [hl]; exact not_false)
              trivial not_false (Or.inl trivial)
    | publishing rejection result =>
      rw [hl] at htask
      cases a with
      | publish result' now => cases result <;> cases htask
      | resume =>
        cases result with
        | ok outcome =>
          cases htask
          exact h.acknowledge hl _ _
        | error err =>
          cases htask
          exact h.move_inFlight (by rw [hl]; trivial) (by rw [hl]; exact not_false)
            trivial not_false (Or.inr trivial)
    | acknowledged result =>
      rw [hl] at htask hreads
      cases a with
      | publish result' now => cases htask
      | resume =>
        cases htask
        obtain ⟨newEventId, attempts, outcome, rfl⟩ := hreads
        refine h.move (Or.inl ⟨_, _, _, rfl⟩) ?_ (fun _ => Or.inr (Or.inl trivial))
          (fun hf => (by cases hf)) fun hby hp => ?_
        · rw [hl]
          exact Iff.rfl
        · have hheld := h.held i hby hp
          rw [hl] at hheld
          cases hheld
    | ended result =>
      rw [hl] at htask
      cases a <;> cases htask

omit [DecidableEq ι] in
theorem claimed_start {store : EventStore} (hrow : (store.getRejection eventId).isSome)
    (hbody : (store.get eventId).isSome) : Claimed eventId (requeueInit (ι := ι) store) where
  body := hbody
  reads _ := trivial
  alone _ _ hi _ := hi.elim
  by_iff _ := iff_of_false (fun h => (by cases h)) not_false
  once := Nat.zero_le 1
  exclusive _ _ hi _ := by cases hi
  held _ hi _ := by cases hi
  absent hp := absurd hrow hp

omit [DecidableEq ι] in
/-- Where a call held the dead letter alone, the calls came to one publish. -/
theorem Claimed.requeuedOnce (h : Claimed eventId s) : RequeuedOnce eventId s := by
  refine ⟨h.once, fun i err hi => ?_, fun hne hend => ?_⟩
  · refine ⟨fun hby => ?_, ?_⟩
    · rw [h.by_iff, hi] at hby
      exact hby
    · by_cases hp : s.shared.Present eventId
      · exact Or.inl hp
      · exact Or.inr (h.absent hp).1
  · obtain ⟨i⟩ := hne
    have hends : ∀ j, (∃ newEventId attempts outcome,
        s.loc j = .ended (.ok (.ok eventId newEventId attempts outcome))) ∧ s.shared.By j ∨
        (∃ message, s.loc j = .ended (.ok (.dlqMiss eventId message))) ∧
          ¬ s.shared.Present eventId ∧ ¬ s.shared.By j := by
      intro j
      obtain ⟨result, hj⟩ := hend j
      have hreads := h.reads j
      have hby := h.by_iff j
      rw [hj] at hreads hby ⊢
      rcases hreads with ⟨newEventId, attempts, outcome, rfl⟩ | ⟨⟨message, rfl⟩, hp⟩
      · exact Or.inl ⟨⟨_, _, _, rfl⟩, hby.mpr trivial⟩
      · exact Or.inr ⟨⟨message, rfl⟩, hp, fun hb => hby.mp hb⟩
    -- a miss found no dead letter, so some call had found it, and that one published
    have hpublished : ∃ j, s.shared.By j := by
      rcases hends i with ⟨-, hby⟩ | ⟨-, hp, -⟩
      · exact ⟨i, hby⟩
      · obtain ⟨-, j, hj⟩ := h.absent hp
        rcases hends j with ⟨-, hby⟩ | ⟨⟨message, hmiss⟩, -⟩
        · exact ⟨j, hby⟩
        · rw [hmiss] at hj
          rcases hj with hj | hj | hj <;> cases hj
    obtain ⟨j, hj⟩ := hpublished
    obtain ⟨⟨k, clone⟩, hmem, rfl⟩ := List.mem_map.mp hj
    obtain ⟨p, hp⟩ := List.length_eq_one_iff.mp
      (Nat.le_antisymm h.once (List.length_pos_of_mem hmem))
    obtain rfl : (k, clone) = p := by
      rw [hp] at hmem
      exact List.mem_singleton.mp hmem
    refine ⟨k, clone, hp, ?_, fun m hm => ?_⟩
    · rcases hends k with ⟨hok, -⟩ | ⟨-, -, hnot⟩
      · exact hok
      · exact absurd hj hnot
    · rcases hends m with ⟨-, hby⟩ | ⟨hmiss, -⟩
      · refine absurd ?_ hm
        simpa [DeadLetters.By, hp] using hby
      · exact hmiss

/-- **Requeues of one dead letter.**  For any number of calls, interleaved with each other, with
the dispatcher and with drops: in every run in which no call finds the dead letter while another
holds it, and in which it is dropped only once it has been found, the calls publish it once, and
where a publish failed it is still there for the next. -/
theorem requeue_exactly_once (newId : ι → String) (store : EventStore)
    (hrow : (store.getRejection eventId).isSome) (hbody : (store.get eventId).isSome)
    (as : List (Label ι RequeueAct RequeueEnv)) (s : State ι (DeadLetters ι) RequeueLoc)
    (r : Run (requeueSystem eventId newId).step (Unshared eventId) (requeueInit store) as s) :
    RequeuedOnce eventId s :=
  Claimed.requeuedOnce <|
    r.invariant (claimed_start hrow hbody) fun _ _ _ h hc hstep => h.step hc hstep

end

/-! ### Two calls at once -/

/-- The store of one dead letter. -/
def deadLetterStore : EventStore := (rejectedDispatcher (.self "wakeup")).store

/-- Both calls find the dead letter before either deletes it, and both publish it. -/
theorem both_publish : ¬ ∀ (ι : Type) [DecidableEq ι] (eventId : String) (newId : ι → String)
    (store : EventStore), (store.getRejection eventId).isSome → (store.get eventId).isSome →
    ∀ (as : List (Label ι RequeueAct RequeueEnv)) (s : State ι (DeadLetters ι) RequeueLoc),
      Run (requeueSystem eventId newId).step Any (requeueInit store) as s →
        RequeuedOnce eventId s := by
  intro h
  have r : Run (requeueSystem "e1" fun i : Bool => if i then "e2" else "e3").step Any
      (requeueInit deadLetterStore)
      [.task true .resume, .task false .resume, .task true .resume, .task false .resume,
        .task true (.publish (.ok none) 1), .task false (.publish (.ok none) 1)] _ :=
    .snoc (.snoc (.snoc (.snoc (.snoc (.snoc .nil trivial rfl) trivial rfl) trivial rfl)
      trivial rfl) trivial rfl) trivial rfl
  exact absurd (h Bool "e1" _ _ rfl rfl _ _ r).once (by decide)

/-- One call after the other: the first publishes, the second misses. -/
theorem requeue_exactly_once_twice : ∃ s, Run (requeueSystem "e1"
      fun i : Bool => if i then "e2" else "e3").step (Unshared "e1") (requeueInit deadLetterStore)
      [.task true .resume, .task true .resume, .task true (.publish (.ok none) 1),
        .task true .resume, .task true .resume, .task false .resume, .task false .resume] s ∧
    s.loc true = .ended (.ok (.ok "e1" "e2" 1 none)) ∧ RequeuedOnce "e1" s := by
  have r : Run (requeueSystem "e1" fun i : Bool => if i then "e2" else "e3").step
      (Unshared "e1") (requeueInit deadLetterStore)
      [.task true .resume, .task true .resume, .task true (.publish (.ok none) 1),
        .task true .resume, .task true .resume, .task false .resume, .task false .resume] _ :=
    .snoc (.snoc (.snoc (.snoc (.snoc (.snoc (.snoc .nil
      (fun _ _ _ hflight => hflight) rfl) (fun hready => (by cases hready)) rfl) trivial rfl)
      (fun hready => (by cases hready)) rfl) (fun hready => (by cases hready)) rfl)
      (fun _ hp => (by cases hp)) rfl) (fun hready => (by cases hready)) rfl
  exact ⟨_, r, rfl, requeue_exactly_once _ _ rfl rfl _ _ r⟩

end Declaragent.Events
