import LabStreamGate.Library.JsonText
import LabStreamGate.Library.Simulation
import LabStreamGate.Gateway.Acknowledged
import LabStreamGate.Gateway.Window

/-!
# The gateway behaves as one atomic registry

Handlers overlap, wait for locks and save the registry in pieces.  Each of them still comes to its
outcome at one moment: a launch where it inserts, a close where it removes, a look-up where it
reads, a listing where it copies the map.
-/

namespace LabStreamGate.Gateway

open Function
open Atomic (Outcome Call Seen)

variable {json : JsonText} {stateFile : Option FilePath}

/-! ## What is seen of the gateway -/

/-- What a management request asks of the registry, where it passes the checks. -/
def PoolRequest.asks (s : State) : PoolRequest → Option Atomic.Request
  | .get => some .list
  | .post body =>
    (body.bind TunnelRequest.ofJson).bind fun req ↦
      match launchTunnel s req with
      | .ok _ => some (.launch req.key req.record)
      | .error _ => none
  | .delete body => (body.bind CloseTunnelRequest.ofJson).map fun req ↦ .close req.key

def Action.asks (s : State) : Action → Option Atomic.Request
  | .pool authorization request =>
    if authorizeManagement s.secret authorization then request.asks s else none
  | .ping key => some (.find key .ping)
  | .processTraffic key => some (.find key .processTraffic)
  | _ => none

/-- What a step of the task `id` shows. -/
def Out.seen (id : Nat) : Out → List Seen
  | .responded status reply => [.answered id status reply]
  | .dialed target => [.dialed id target]
  | _ => []

def see (json : JsonText) (stateFile : Option FilePath) (e : Event State Action Out) : List Seen :=
  match e.act with
  | .tick now => [.ticked now]
  | .run id _ => e.out.seen id
  | .start _ => [.started fun key ↦ (loadRegistry json stateFile e.pre.now e.pre.files).lookup key]
  | act => ((act.asks e.pre).map fun request ↦ .asked e.pre.nextTask request).toList

/-! ## What a task stands for -/

/-- What is to be answered for a call of `persist_registry`. -/
inductive Caller.Stands (now : UInt64) : Option Call → Caller → Prop
  | launchTunnel {key : String} {record : TunnelRecord} :
      Stands now (some (.settled (.launched key record))) (.launchTunnel record)
  | closeTunnel {key : String} : Stands now (some (.settled (.closed key))) .closeTunnel
  | activeRecord {key : String} {use : Use} {record : TunnelRecord} {moment : UInt64} :
      record.isExpired now = true →
      Stands now (some (.settled (.found key use record moment))) (.activeRecord use)
  | list : Stands now (some (.asked .list)) (.removeExpired true)
  | cleanup {c : Option Call} : Stands now c (.removeExpired false)

/-- `Stands now c task`: the task is all that is left to do for the call. -/
inductive Task.Stands (now : UInt64) : Option Call → Task → Prop
  | launchInsert {key : String} {record : TunnelRecord} :
      Stands now (some (.asked (.launch key record))) (.launchInsert key record)
  | closeRemove {key : String} : Stands now (some (.asked (.close key))) (.closeRemove key)
  | lookup {key : String} {use : Use} : Stands now (some (.asked (.find key use))) (.lookup key use)
  | checkExpiry {key : String} {use : Use} {record : TunnelRecord} {moment : UInt64} :
      moment ≤ now →
      Stands now (some (.settled (.found key use record moment))) (.checkExpiry key record use)
  | evict {key : String} {use : Use} {record : TunnelRecord} {moment : UInt64} :
      record.isExpired now = true →
      Stands now (some (.settled (.found key use record moment))) (.evict key use)
  | retain {horizon : UInt64} : horizon ≤ now →
      Stands now (some (.asked .list)) (.retain horizon true)
  | cleanup {c : Option Call} {horizon : UInt64} : horizon ≤ now →
      Stands now c (.retain horizon false)
  | list : Stands now (some (.asked .list)) .list
  | persist {c : Option Call} {stage : PersistStage} {caller : Caller} : caller.Stands now c →
      Stands now c (.persist stage caller)
  | respond {outcome : Outcome} {status : StatusCode} {reply : Reply} :
      outcome.Allows now status reply → Stands now (some (.settled outcome)) (.respond status reply)
  | acquireTunnel {key : String} {record : TunnelRecord} {moment : UInt64} :
      record.isExpired moment = false →
      Stands now (some (.settled (.found key .processTraffic record moment)))
        (.acquireTunnel key record)
  | acquireSlot {key : String} {record : TunnelRecord} {moment : UInt64} :
      record.isExpired moment = false →
      Stands now (some (.settled (.found key .processTraffic record moment)))
        (.acquireSlot key record)
  | upgrade {key : String} {record : TunnelRecord} {moment : UInt64} :
      record.isExpired moment = false →
      Stands now (some (.settled (.found key .processTraffic record moment))) (.upgrade key record)
  | connect {key : String} {record : TunnelRecord} {moment : UInt64} :
      record.isExpired moment = false →
      Stands now (some (.settled (.found key .processTraffic record moment))) (.connect key record)
  | startCapture {c : Option Call} {key : String} {record : TunnelRecord} :
      Stands now c (.startCapture key record)
  | relay {c : Option Call} {key : String} {record : TunnelRecord} {deadline : Nat} :
      Stands now c (.relay key record deadline)
  | refuse {outcome : Outcome} {guards : List Guard} {status : StatusCode} {reply : Reply} :
      outcome.Allows now status reply →
      Stands now (some (.settled outcome)) (.release guards (some (status, reply)))
  | release {c : Option Call} {guards : List Guard} : Stands now c (.release guards none)

section

variable {now now' : UInt64} {c : Option Call} {caller : Caller} {task : Task}

theorem Atomic.Outcome.Allows.mono {outcome : Outcome} {status : StatusCode} {reply : Reply}
    (h : outcome.Allows now status reply) (hle : now ≤ now') :
    outcome.Allows now' status reply := by
  cases h with
  | gone hexp hreply => exact .gone (TunnelRecord.isExpired_mono hexp hle) hreply
  | launched => exact .launched
  | launchUnsaved => exact .launchUnsaved
  | closed => exact .closed
  | closeUnsaved => exact .closeUnsaved
  | notClosed => exact .notClosed
  | notFound hreply => exact .notFound hreply
  | live hlive => exact .live hlive
  | tunnelBusy hlive => exact .tunnelBusy hlive
  | gatewayBusy hlive => exact .gatewayBusy hlive
  | listed htable => exact .listed htable

theorem Caller.Stands.mono (h : caller.Stands now c) (hle : now ≤ now') : caller.Stands now' c := by
  cases h with
  | activeRecord hexp => exact .activeRecord (TunnelRecord.isExpired_mono hexp hle)
  | launchTunnel => exact .launchTunnel
  | closeTunnel => exact .closeTunnel
  | list => exact .list
  | cleanup => exact .cleanup

-- Time goes on, and what has expired stays so.
theorem Task.Stands.mono (h : task.Stands now c) (hle : now ≤ now') : task.Stands now' c := by
  cases h with
  | launchInsert => exact .launchInsert
  | closeRemove => exact .closeRemove
  | lookup => exact .lookup
  | checkExpiry hmoment => exact .checkExpiry (UInt64.le_trans hmoment hle)
  | evict hexp => exact .evict (TunnelRecord.isExpired_mono hexp hle)
  | retain hhorizon => exact .retain (UInt64.le_trans hhorizon hle)
  | cleanup hhorizon => exact .cleanup (UInt64.le_trans hhorizon hle)
  | list => exact .list
  | persist hcaller => exact .persist (hcaller.mono hle)
  | respond hallows => exact .respond (hallows.mono hle)
  | acquireTunnel hlive => exact .acquireTunnel hlive
  | acquireSlot hlive => exact .acquireSlot hlive
  | upgrade hlive => exact .upgrade hlive
  | connect hlive => exact .connect hlive
  | startCapture => exact .startCapture
  | relay => exact .relay
  | refuse hallows => exact .refuse (hallows.mono hle)
  | release => exact .release

-- How the caller goes on fits what its request came to.
theorem Caller.Stands.resume {result : Except String Unit} (h : caller.Stands now c)
    (hresume : caller.resume result = some task) : task.Stands now c := by
  cases h with
  | launchTunnel =>
    cases result <;> cases hresume
    · exact .respond .launchUnsaved
    · exact .respond .launched
  | closeTunnel =>
    cases result <;> cases hresume
    · exact .respond .closeUnsaved
    · exact .respond .closed
  | @activeRecord key use record moment hexp =>
    obtain ⟨reply, hreply⟩ := use.refuse_eq .gone "tunnel expired"
    have htask : task = .respond .gone reply :=
      (Option.some.inj hresume).symm.trans hreply
    subst htask
    exact .respond (.gone hexp hreply)
  | list =>
    cases hresume
    exact .list
  | cleanup => cases hresume

/-- The same where nothing may have to be saved. -/
theorem Caller.Stands.persistRegistry (h : caller.Stands now c)
    (hpersist : persistRegistry stateFile caller = some task) : task.Stands now c := by
  unfold Gateway.persistRegistry at hpersist
  split at hpersist
  · exact h.resume hpersist
  · cases hpersist
    exact .persist h

end

/-! ## One step of a task -/

section

variable {s : State} {task : Task} {io : Io} {e : Effect} {id : Nat} {t : Atomic.State}

/-- The atomic registry after it has answered a step of the task `id`. -/
structure Effect.Settles (e : Effect) (time : UInt64) (t : Atomic.State) (id : Nat)
    (t' : Atomic.State) : Prop where
  now : t'.now = t.now
  fresh : t'.fresh = t.fresh
  table : ∀ key, t'.table key = e.connections.lookup key
  others : ∀ id', id' ≠ id → t'.calls id' = t.calls id'
  stands : ∀ task', e.task = some task' → task'.Stands time (t'.calls id)

/-- The atomic registry makes no step. -/
theorem Effect.Settles.refl {c : Option Call} (hcall : t.calls id = c)
    (htable : ∀ key, t.table key = s.connections.lookup key)
    (hconn : e.connections = s.connections)
    (hstands : ∀ task', e.task = some task' → task'.Stands s.now c) : e.Settles s.now t id t where
  now := rfl
  fresh := rfl
  table := fun key ↦ by rw [htable, hconn]
  others := fun _ _ ↦ rfl
  stands := fun task' htask ↦ hcall ▸ hstands task' htask

/-- Two answers for one task, one after the other. -/
theorem Effect.Settles.trans {e' : Effect} {time : UInt64} {t' t'' : Atomic.State}
    (h : e'.Settles time t id t') (h' : e.Settles time t' id t'') : e.Settles time t id t'' where
  now := h'.now.trans h.now
  fresh := h'.fresh.trans h.fresh
  table := h'.table
  others := fun id' hid ↦ (h'.others id' hid).trans (h.others id' hid)
  stands := h'.stands

/-- The request of the task comes to its outcome. -/
theorem answers_settle {request : Atomic.Request} (hcall : t.calls id = some (.asked request))
    (htable : ∀ key, request.apply t.table key = e.connections.lookup key)
    (hstands : ∀ task', e.task = some task' →
      task'.Stands s.now (some (.settled (request.outcome t.table t.now)))) :
    Answers Atomic.next Atomic.see t [] (e.Settles s.now t id) := by
  have hnext : Atomic.next t (.settle id) = some ([],
      { t with
        table := request.apply t.table
        calls := update t.calls id (some (.settled (request.outcome t.table t.now))) }) := by
    simp only [Atomic.next, hcall]
  refine Answers.single Atomic.see hnext ⟨rfl, rfl, htable, ?_, ?_⟩
  · intro id' hid
    exact update_of_ne hid ..
  · intro task' htask
    show task'.Stands s.now (update t.calls id _ id)
    rw [update_self]
    exact hstands task' htask

/-- The answer goes out. -/
theorem answers_answer {outcome : Outcome} {status : StatusCode} {reply : Reply}
    (hcall : t.calls id = some (.settled outcome)) (hallows : outcome.Allows t.now status reply)
    (htable : ∀ key, t.table key = e.connections.lookup key) (htask : e.task = none) :
    Answers Atomic.next Atomic.see t [.answered id status reply] (e.Settles s.now t id) := by
  have hnext : Atomic.next t (.answer id status reply) =
      some ([.answered id status reply], { t with calls := update t.calls id none }) := by
    simp only [Atomic.next, hcall, if_pos hallows]
  refine Answers.single Atomic.see hnext ⟨rfl, rfl, htable, ?_, ?_⟩
  · intro id' hid
    exact update_of_ne hid ..
  · intro task' htask'
    rw [htask] at htask'
    cases htask'

/-- The target is dialed; what becomes of the connection is not seen of the registry. -/
theorem answers_dial {outcome : Outcome} {target : String}
    (hcall : t.calls id = some (.settled outcome)) (htarget : outcome.target = some target)
    (htable : ∀ key, t.table key = e.connections.lookup key)
    (hstands : ∀ task', e.task = some task' → task'.Stands s.now none) :
    Answers Atomic.next Atomic.see t [.dialed id target] (e.Settles s.now t id) := by
  have hnext : Atomic.next t (.dial id) =
      some ([.dialed id target], { t with calls := update t.calls id none }) := by
    simp only [Atomic.next, hcall, htarget, Option.map_some]
  refine Answers.single Atomic.see hnext ⟨rfl, rfl, htable, ?_, ?_⟩
  · intro id' hid
    exact update_of_ne hid ..
  · intro task' htask
    show task'.Stands s.now (update t.calls id _ id)
    rw [update_self]
    exact hstands task' htask

/-- Records that have expired are forgotten. -/
theorem answers_expire {horizon : UInt64} {c : Option Call} (hcall : t.calls id = c)
    (hhorizon : horizon ≤ t.now)
    (htable : ∀ key, ((t.table key).filter fun record ↦ !record.isExpired horizon) =
      e.connections.lookup key)
    (hstands : ∀ task', e.task = some task' → task'.Stands s.now c) :
    Answers Atomic.next Atomic.see t [] (e.Settles s.now t id) := by
  have hnext : Atomic.next t (.expire horizon) = some ([],
      { t with
        table := fun key ↦ (t.table key).filter fun record ↦ !record.isExpired horizon }) := by
    simp only [Atomic.next, if_pos hhorizon]
  exact Answers.single Atomic.see hnext
    ⟨rfl, rfl, htable, fun _ _ ↦ rfl, fun task' htask ↦ hcall ▸ hstands task' htask⟩

/-- A record that was found and has expired takes its key down. -/
theorem answers_evict {outcome : Outcome} {key : String}
    (hcall : t.calls id = some (.settled outcome)) (hkey : outcome.expired t.now = some key)
    (htable : ∀ key', update t.table key none key' = e.connections.lookup key')
    (hstands : ∀ task', e.task = some task' → task'.Stands s.now (some (.settled outcome))) :
    Answers Atomic.next Atomic.see t [] (e.Settles s.now t id) := by
  have hnext : Atomic.next t (.evict id) =
      some ([], { t with table := update t.table key none }) := by
    simp only [Atomic.next, hcall, hkey, Option.map_some]
  exact Answers.single Atomic.see hnext
    ⟨rfl, rfl, htable, fun _ _ ↦ rfl, fun task' htask ↦ hcall ▸ hstands task' htask⟩

/-- The registry stays as it is, and the task goes on to nothing that is seen. -/
theorem answers_stutter {c : Option Call} (hcall : t.calls id = c)
    (htable : ∀ key, t.table key = s.connections.lookup key)
    (hconn : e.connections = s.connections) (hout : e.out.seen id = [])
    (hstands : ∀ task', e.task = some task' → task'.Stands s.now c) :
    Answers Atomic.next Atomic.see t (e.out.seen id) (e.Settles s.now t id) := by
  rw [hout]
  exact .stutter (.refl hcall htable hconn hstands)

theorem answers_goOn {c : Option Call} {after : Task} (hcall : t.calls id = c)
    (htable : ∀ key, t.table key = s.connections.lookup key)
    (hconn : e.connections = s.connections) (hout : e.out.seen id = [])
    (hafter : e.task = some after) (hstands : after.Stands s.now c) :
    Answers Atomic.next Atomic.see t (e.out.seen id) (e.Settles s.now t id) := by
  refine answers_stutter hcall htable hconn hout fun task' htask ↦ ?_
  obtain rfl : after = task' := Option.some.inj (hafter.symm.trans htask)
  exact hstands

-- No step of `persist_registry` shows anything; its last ones lead back to the caller.
theorem PersistStage.Ran.stands {path : FilePath} {stage : PersistStage} {caller : Caller}
    {c : Option Call} (h : stage.Ran json path s caller io e) (id : Nat)
    (hcaller : caller.Stands s.now c) :
    e.out.seen id = [] ∧ ∀ task', e.task = some task' → task'.Stands s.now c := by
  cases h with
  | rename _ _ => exact ⟨rfl, fun _ ↦ hcaller.resume⟩
  | missing _ _ => exact ⟨rfl, fun _ ↦ hcaller.resume⟩
  | failed => exact ⟨rfl, fun _ ↦ hcaller.resume⟩
  | createDirAll =>
    refine ⟨rfl, fun task' htask ↦ ?_⟩
    cases htask
    exact .persist hcaller
  | snapshot =>
    refine ⟨rfl, fun task' htask ↦ ?_⟩
    cases htask
    exact .persist hcaller
  | create =>
    refine ⟨rfl, fun task' htask ↦ ?_⟩
    cases htask
    exact .persist hcaller
  | write _ =>
    refine ⟨rfl, fun task' htask ↦ ?_⟩
    cases htask
    exact .persist hcaller

theorem lookup_erase_eq_update {registry : Registry} {key key' : String}
    (htable : ∀ key, t.table key = registry.lookup key) :
    update t.table key none key' = (registry.erase key).lookup key' := by
  by_cases hk : key' = key
  · rw [hk, update_self, AList.lookup_erase]
  · rw [update_of_ne hk, AList.lookup_erase_ne hk, htable]

theorem lookup_insert_eq_update {registry : Registry} {key key' : String} {record : TunnelRecord}
    (htable : ∀ key, t.table key = registry.lookup key) :
    update t.table key (some record) key' = (registry.insert key record).lookup key' := by
  by_cases hk : key' = key
  · rw [hk, update_self, AList.lookup_insert]
  · rw [update_of_ne hk, AList.lookup_insert_ne hk, htable]

theorem answers_closeRemove {key : String} (hcall : t.calls id = some (.asked (.close key)))
    (htable : ∀ key, t.table key = s.connections.lookup key)
    (hrun : (Task.closeRemove key).run json stateFile s io = some e) :
    Answers Atomic.next Atomic.see t (e.out.seen id) (e.Settles s.now t id) := by
  cases io <;> simp only [Task.run.eq_def, reduceCtorEq] at hrun
  split at hrun <;> cases hrun
  · rename_i hnone
    have hout : (Atomic.Request.close key).outcome t.table t.now = .notThere key none := by
      rw [Atomic.Request.outcome, htable, hnone]
      rfl
    refine answers_settle hcall (fun key' ↦ ?_) fun task' htask ↦ ?_
    · -- what is not there need not be taken out
      rw [Atomic.Request.apply, State.keep_connections]
      by_cases hk : key' = key
      · rw [hk, update_self, hnone]
      · rw [update_of_ne hk, htable]
    · cases htask
      rw [hout]
      exact .respond .notClosed
  · rename_i record hsome
    have hout : (Atomic.Request.close key).outcome t.table t.now = .closed key := by
      rw [Atomic.Request.outcome, htable, hsome]
      rfl
    refine answers_settle hcall (fun _ ↦ lookup_erase_eq_update htable) fun task' htask ↦ ?_
    rw [hout]
    exact Caller.Stands.closeTunnel.persistRegistry htask

theorem answers_lookup {key : String} {use : Use}
    (hcall : t.calls id = some (.asked (.find key use))) (hnow : t.now = s.now)
    (htable : ∀ key, t.table key = s.connections.lookup key)
    (hrun : (Task.lookup key use).run json stateFile s io = some e) :
    Answers Atomic.next Atomic.see t (e.out.seen id) (e.Settles s.now t id) := by
  cases io <;> simp only [Task.run.eq_def, reduceCtorEq] at hrun
  split at hrun <;> cases hrun
  · rename_i hnone
    refine answers_settle hcall htable fun task' htask ↦ ?_
    obtain ⟨reply, hreply⟩ := use.refuse_eq .notFound "tunnel not found"
    have htask' : task' = .respond .notFound reply := (Option.some.inj htask).symm.trans hreply
    rw [htask', Atomic.Request.outcome, htable, hnone]
    exact .respond (.notFound hreply)
  · rename_i record hsome
    refine answers_settle hcall htable fun task' htask ↦ ?_
    cases htask
    rw [Atomic.Request.outcome, htable, hsome]
    exact .checkExpiry (hnow ▸ UInt64.le_refl _)

theorem answers_checkExpiry {key : String} {use : Use} {record : TunnelRecord} {moment : UInt64}
    (hcall : t.calls id = some (.settled (.found key use record moment)))
    (hmoment : moment ≤ s.now)
    (htable : ∀ key, t.table key = s.connections.lookup key)
    (hrun : (Task.checkExpiry key record use).run json stateFile s io = some e) :
    Answers Atomic.next Atomic.see t (e.out.seen id) (e.Settles s.now t id) := by
  cases io <;> simp only [Task.run.eq_def, reduceCtorEq] at hrun
  split at hrun
  · rename_i hexp
    cases hrun
    exact answers_goOn hcall htable rfl rfl rfl (.evict hexp)
  · rename_i hnot
    -- what has not expired now had not expired when it was found
    have hlive : record.isExpired moment = false := by
      rw [Bool.eq_false_iff]
      exact fun hexp ↦ hnot (TunnelRecord.isExpired_mono hexp hmoment)
    cases use with
    | ping =>
      cases hrun
      exact answers_goOn hcall htable rfl rfl rfl (.respond (.live hlive))
    | processTraffic =>
      cases hrun
      exact answers_goOn hcall htable rfl rfl rfl (.acquireTunnel hlive)

theorem answers_list (hcall : t.calls id = some (.asked .list)) (hnow : t.now = s.now)
    (htable : ∀ key, t.table key = s.connections.lookup key)
    (hrun : Task.list.run json stateFile s io = some e) :
    Answers Atomic.next Atomic.see t (e.out.seen id) (e.Settles s.now t id) := by
  cases io <;> simp only [Task.run.eq_def, reduceCtorEq] at hrun
  cases hrun
  -- the map is copied at one moment, and the copy goes out
  let copied := s.keep .silent (some (.respond .ok (.registry s.connections)))
  have hsettled : Answers Atomic.next Atomic.see t [] (copied.Settles s.now t id) := by
    refine answers_settle hcall htable fun task' htask ↦ ?_
    cases htask
    exact .respond (.listed fun key ↦ (htable key).symm)
  refine hsettled.trans fun t' ht' ↦ ?_
  have hrespond := ht'.stands _ rfl
  generalize hcall' : t'.calls id = c' at hrespond
  cases hrespond with
  | respond hallows =>
    rw [← hnow, ← ht'.now] at hallows
    have hanswer : Answers Atomic.next Atomic.see t' _
        ((s.keep (.responded .ok (.registry s.connections)) none).Settles s.now t' id) :=
      answers_answer hcall' hallows ht'.table rfl
    exact hanswer.mono fun _ ht'' ↦ ht'.trans ht''

-- The moments are where the registry is locked; every other step is the task's own affair.
theorem Task.Stands.step (h : task.Stands s.now (t.calls id)) (hnow : t.now = s.now)
    (htable : ∀ key, t.table key = s.connections.lookup key)
    (hrun : task.run json stateFile s io = some e) :
    Answers Atomic.next Atomic.see t (e.out.seen id) (e.Settles s.now t id) := by
  generalize hcall : t.calls id = c at h
  cases h with
  | launchInsert =>
    cases io <;> simp only [Task.run.eq_def, reduceCtorEq] at hrun
    cases hrun
    exact answers_settle hcall (fun _ ↦ lookup_insert_eq_update htable)
      fun _ ↦ Caller.Stands.launchTunnel.persistRegistry
  | closeRemove => exact answers_closeRemove hcall htable hrun
  | lookup => exact answers_lookup hcall hnow htable hrun
  | checkExpiry hmoment => exact answers_checkExpiry hcall hmoment htable hrun
  | evict hexp =>
    cases io <;> simp only [Task.run.eq_def, reduceCtorEq] at hrun
    cases hrun
    refine answers_evict hcall ?_ (fun _ ↦ lookup_erase_eq_update htable)
      fun _ ↦ (Caller.Stands.activeRecord hexp).persistRegistry
    rw [Outcome.expired, hnow, if_pos hexp]
  | retain hhorizon =>
    cases io <;> simp only [Task.run.eq_def, reduceCtorEq] at hrun
    split at hrun <;> cases hrun
    · exact answers_goOn hcall htable rfl rfl rfl .list
    · refine answers_expire hcall (hnow ▸ hhorizon) (fun key ↦ ?_)
        fun _ ↦ Caller.Stands.list.persistRegistry
      rw [htable]
      exact (Registry.lookup_retain _ _ key).symm
  | cleanup hhorizon =>
    cases io <;> simp only [Task.run.eq_def, reduceCtorEq] at hrun
    split at hrun <;> cases hrun
    · refine answers_stutter hcall htable rfl rfl fun task' htask ↦ ?_
      cases htask
    · refine answers_expire hcall (hnow ▸ hhorizon) (fun key ↦ ?_)
        fun _ ↦ Caller.Stands.cleanup.persistRegistry
      rw [htable]
      exact (Registry.lookup_retain _ _ key).symm
  | list => exact answers_list hcall hnow htable hrun
  | persist hcaller =>
    obtain ⟨path, -, hstage⟩ := Task.run_persist hrun
    have hran := PersistStage.run_ran hstage
    obtain ⟨hout, hstands⟩ := hran.stands id hcaller
    exact answers_stutter hcall htable hran.connections hout hstands
  | respond hallows =>
    cases io <;> simp only [Task.run.eq_def, reduceCtorEq] at hrun
    cases hrun
    exact answers_answer hcall (hnow ▸ hallows) htable rfl
  | acquireTunnel hlive =>
    cases io <;> simp only [Task.run.eq_def, reduceCtorEq] at hrun
    cases hrun
    refine answers_stutter hcall htable rfl rfl fun task' htask ↦ ?_
    cases htask
    split
    · exact .acquireSlot hlive
    · exact .respond (.tunnelBusy hlive)
  | acquireSlot hlive =>
    cases io <;> simp only [Task.run.eq_def, reduceCtorEq] at hrun
    split at hrun <;> cases hrun
    · exact answers_goOn hcall htable rfl rfl rfl (.refuse (.gatewayBusy hlive))
    · exact answers_goOn hcall htable rfl rfl rfl (.upgrade hlive)
  | upgrade hlive =>
    cases io <;> simp only [Task.run.eq_def, reduceCtorEq] at hrun <;> cases hrun
    · exact answers_goOn hcall htable rfl rfl rfl (.connect hlive)
    · exact answers_goOn hcall htable rfl rfl rfl .release
  | connect hlive =>
    have htarget : ∀ {key record moment}, TunnelRecord.isExpired record moment = false →
        Outcome.target (.found key .processTraffic record moment) = some record.target := by
      intro key record moment hlive
      rw [Outcome.target, hlive]
      rfl
    cases io <;> simp only [Task.run.eq_def, reduceCtorEq] at hrun <;> cases hrun
    · refine answers_dial hcall (htarget hlive) htable fun task' htask ↦ ?_
      cases htask
      split
      · exact .startCapture
      · exact .relay
    · refine answers_dial hcall (htarget hlive) htable fun task' htask ↦ ?_
      cases htask
      exact .release
    · refine answers_dial hcall (htarget hlive) htable fun task' htask ↦ ?_
      cases htask
      exact .release
  | startCapture =>
    cases io <;> simp only [Task.run.eq_def, reduceCtorEq] at hrun <;> cases hrun <;>
      exact answers_goOn hcall htable rfl rfl rfl .relay
  | relay =>
    cases io <;> simp only [Task.run.eq_def, reduceCtorEq] at hrun
    · cases hrun
      exact answers_goOn hcall htable rfl rfl rfl .release
    · cases hrun
      exact answers_goOn hcall htable rfl rfl rfl .relay
    · split at hrun <;> cases hrun
      · exact answers_goOn hcall htable rfl rfl rfl .release
      · exact answers_goOn hcall htable rfl rfl rfl .relay
    · cases hrun
      exact answers_goOn hcall htable rfl rfl rfl .release
  | refuse hallows =>
    rename_i outcome guards status reply
    cases io <;> simp only [Task.run.eq_def, reduceCtorEq] at hrun
    cases hrun
    refine answers_stutter hcall htable State.release_connections (by rw [State.release_out]; rfl)
      fun task' htask ↦ ?_
    cases guards with
    | nil =>
      cases htask
      exact .respond hallows
    | cons guard guards =>
      cases guard <;> cases htask <;> exact .refuse hallows
  | release =>
    rename_i guards
    cases io <;> simp only [Task.run.eq_def, reduceCtorEq] at hrun
    cases hrun
    refine answers_stutter hcall htable State.release_connections (by rw [State.release_out]; rfl)
      fun task' htask ↦ ?_
    cases guards with
    | nil => cases htask
    | cons guard guards =>
      cases guard <;> cases htask <;> exact .release

end

/-! ## Any step -/

/-- The atomic registry stands where the gateway does. -/
structure Mirrors (s : State) (t : Atomic.State) : Prop where
  now : t.now = s.now
  table : ∀ key, t.table key = s.connections.lookup key
  fresh : t.fresh ≤ s.nextTask
  below : Below s
  stands : ∀ id task, s.tasks id = some task → task.Stands s.now (t.calls id)

section

variable {s s' : State} {t : Atomic.State} {a : Action} {o : Out} {request : PoolRequest}
  {task : Task}

theorem launch_nextTask {config : Config} {now : UInt64} {files : Fs FilePath} {nextTask : Nat}
    (h : launch json stateFile config now files nextTask = some s) : s.nextTask = nextTask := by
  simp only [launch, Option.ite_none_right_eq_some] at h
  obtain ⟨-, h⟩ := h
  cases h
  rfl

-- A request that is turned down leaves no trace; the others start the task that stands for them.
theorem pool_asks : (request.asks s = none ∧ (pool s request).2 = s) ∨
    ∃ r task, request.asks s = some r ∧ pool s request = (.silent, s.spawn task) ∧
      task.Stands s.now (some (.asked r)) := by
  cases request with
  | get => exact .inr ⟨_, _, rfl, rfl, .retain (UInt64.le_refl _)⟩
  | post body =>
    cases hbody : body.bind TunnelRequest.ofJson with
    | none => simp [PoolRequest.asks, pool, hbody]
    | some req =>
      cases hlaunch : launchTunnel s req with
      | error refusal => simp [PoolRequest.asks, pool, hbody, hlaunch]
      | ok task =>
        have htask := launchTunnel_eq hlaunch
        subst htask
        refine .inr ⟨.launch req.key req.record, .launchInsert req.key req.record, ?_, ?_,
          .launchInsert⟩
        · simp only [PoolRequest.asks, hbody, Option.bind_some, hlaunch]
        · simp only [pool, hbody, hlaunch]
  | delete body =>
    cases hbody : body.bind CloseTunnelRequest.ofJson with
    | none => simp [PoolRequest.asks, pool, hbody]
    | some req =>
      refine .inr ⟨.close req.key, .closeRemove req.key, ?_, ?_, .closeRemove⟩
      · simp only [PoolRequest.asks, hbody, Option.map_some]
      · simp only [pool, hbody]

/-- A request is asked of both under the number that its task gets. -/
theorem Mirrors.ask {request : Atomic.Request} (h : Mirrors s t)
    (hstands : task.Stands s.now (some (.asked request))) :
    Answers Atomic.next Atomic.see t [.asked s.nextTask request] (Mirrors (s.spawn task)) := by
  have hnext : Atomic.next t (.ask s.nextTask request) = some ([.asked s.nextTask request],
      { t with
        calls := update t.calls s.nextTask (some (.asked request))
        fresh := s.nextTask + 1 }) := by
    simp only [Atomic.next, if_pos h.fresh]
  refine Answers.single Atomic.see hnext
    ⟨h.now, h.table, Nat.le_refl _, TasksBelow.spawn h.below, ?_⟩
  intro id task' htask
  show task'.Stands s.now (update t.calls s.nextTask _ id)
  rcases tasks_of_update htask with ⟨rfl, hnew⟩ | ⟨hid, hold⟩
  · cases hnew
    rw [update_self]
    exact hstands
  · rw [update_of_ne hid]
    exact h.stands id task' hold

-- A background task has no call to stand for.
theorem Mirrors.spawn (h : Mirrors s t) (hstands : ∀ c, task.Stands s.now c) :
    Mirrors (s.spawn task) t := by
  refine ⟨h.now, h.table, Nat.le_succ_of_le h.fresh, TasksBelow.spawn h.below, ?_⟩
  intro id task' htask
  rcases tasks_of_update htask with ⟨rfl, hnew⟩ | ⟨-, hold⟩
  · cases hnew
    exact hstands _
  · exact h.stands id task' hold

theorem Mirrors.tick {now : UInt64} (h : Mirrors s t) (hle : s.now ≤ now) :
    Answers Atomic.next Atomic.see t [.ticked now] (Mirrors { s with now }) := by
  have hnext : Atomic.next t (.tick now) = some ([.ticked now], { t with now := now }) := by
    simp only [Atomic.next, if_pos (h.now ▸ hle)]
  exact Answers.single Atomic.see hnext
    ⟨rfl, h.table, h.fresh, h.below, fun id task htask ↦ (h.stands id task htask).mono hle⟩

theorem Mirrors.run {id : Nat} {io : Io} {e : Effect} (h : Mirrors s t)
    (htask : s.tasks id = some task) (hrun : task.run json stateFile s io = some e) :
    Answers Atomic.next Atomic.see t (e.out.seen id) (Mirrors (s.apply id e)) := by
  refine ((h.stands id task htask).step h.now h.table hrun).mono fun t' ht' ↦ ?_
  refine ⟨ht'.now.trans h.now, ht'.table, ht'.fresh.symm ▸ h.fresh,
    TasksBelow.step h.below (h.below.lt htask), ?_⟩
  intro id' task' htask'
  rcases State.apply_tasks htask' with ⟨rfl, hafter⟩ | ⟨hid, hold⟩
  · exact ht'.stands task' hafter
  · rw [ht'.others id' hid]
    exact h.stands id' task' hold

theorem Mirrors.start {config : Config} (h : Mirrors s t)
    (hlaunch : launch json stateFile config s.now s.files s.nextTask = some s') :
    Answers Atomic.next Atomic.see t
      [.started fun key ↦ (loadRegistry json stateFile s.now s.files).lookup key]
      (Mirrors s') := by
  obtain ⟨hnow, -, htasks, -, hconn⟩ := launch_eq hlaunch
  have hnext : Atomic.next t
      (.start fun key ↦ (loadRegistry json stateFile s.now s.files).lookup key) =
      some ([.started fun key ↦ (loadRegistry json stateFile s.now s.files).lookup key],
        { t with
          table := fun key ↦ (loadRegistry json stateFile s.now s.files).lookup key
          calls := fun _ ↦ none }) := rfl
  refine Answers.single Atomic.see hnext
    ⟨h.now.trans hnow.symm, fun key ↦ by rw [hconn], ?_, .of_no_tasks htasks, ?_⟩
  · rw [launch_nextTask hlaunch]
    exact h.fresh
  · intro id task htask
    rw [htasks] at htask
    cases htask

/-- Whatever the gateway does, the atomic registry can follow. -/
theorem mirrors : Simulation (next json stateFile) (see json stateFile) Atomic.next Atomic.see
    Mirrors where
  step := by
    intro s s' t a o hrel hnext
    cases a with
    | tick now =>
      simp only [next, Option.ite_none_right_eq_some, Option.some.injEq, Prod.mk.injEq] at hnext
      obtain ⟨hle, -, rfl⟩ := hnext
      exact hrel.tick hle
    | pool authorization request =>
      by_cases hauth : authorizeManagement s.secret authorization = true
      · rw [next, if_pos hauth] at hnext
        have hafter : (pool s request).2 = s' := congrArg Prod.snd (Option.some.inj hnext)
        rw [← hafter]
        rcases @pool_asks s request with
          ⟨hasks, hsame⟩ | ⟨r, task, hasks, hpool, hstands⟩
        · rw [hsame]
          simp only [see, Action.asks, if_pos hauth, hasks]
          exact .stutter hrel
        · rw [hpool]
          simp only [see, Action.asks, if_pos hauth, hasks]
          exact hrel.ask hstands
      · rw [next, if_neg hauth] at hnext
        cases hnext
        simp only [see, Action.asks, if_neg hauth]
        exact .stutter hrel
    | ping key =>
      cases hnext
      exact hrel.ask .lookup
    | processTraffic key =>
      cases hnext
      exact hrel.ask .lookup
    | cleanup =>
      cases hnext
      exact .stutter (hrel.spawn fun _ ↦ .cleanup (UInt64.le_refl _))
    | run id io =>
      simp only [next, Option.bind_eq_some_iff, Option.map_eq_some_iff, Prod.mk.injEq] at hnext
      obtain ⟨task, htask, e, he, rfl, rfl⟩ := hnext
      exact hrel.run htask he
    | start config =>
      simp only [next, Option.map_eq_some_iff, Prod.mk.injEq] at hnext
      obtain ⟨t, ht, -, rfl⟩ := hnext
      exact hrel.start ht

end

/-! ## Whole runs -/

section

variable {s t : State} {tr : List (Event State Action Out)}

/-- The registry of a process that has just been started. -/
def atomic (s : State) : Atomic.State :=
  Atomic.fresh s.now (fun key ↦ s.connections.lookup key) s.nextTask

theorem mirrors_launch {config : Config} {now : UInt64} {files : Fs FilePath} {nextTask : Nat}
    (hlaunch : launch json stateFile config now files nextTask = some s) :
    Mirrors s (atomic s) := by
  obtain ⟨-, -, htasks, -, -⟩ := launch_eq hlaunch
  refine ⟨rfl, fun _ ↦ rfl, Nat.le_refl _, .of_no_tasks htasks, fun id task htask ↦ ?_⟩
  rw [htasks] at htask
  cases htask

/-- All that is seen of a gateway, whatever its handlers do at the same time, is also seen of an
atomic registry that ends with the same records. -/
theorem registry_linearizable {config : Config} {now : UInt64} {files : Fs FilePath}
    {nextTask : Nat} (hlaunch : launch json stateFile config now files nextTask = some s)
    (h : Run (next json stateFile) s tr t) :
    ∃ tr' t', Run Atomic.next (atomic s) tr' t' ∧
      seen Atomic.see tr' = seen (see json stateFile) tr ∧ t'.now = t.now ∧
      ∀ key, t'.table key = t.connections.lookup key := by
  obtain ⟨tr', t', hrun, hseen, hmirrors⟩ := mirrors.run (mirrors_launch hlaunch) h
  exact ⟨tr', t', hrun, hseen, hmirrors.now, hmirrors.table⟩

/-- The ping is answered 404. -/
def samplePinged (e : Event State Action Out) : Bool :=
  match e.act with
  | .run id _ => id = 1 ∧ e.out = .responded .notFound .empty
  | _ => false

-- A ping is asked while a launch is under way and comes first.
theorem registry_linearizable_sample : ∃ s tr' t',
    launch JsonText.compact none sampleConfig 0 Fs.empty 0 = some s ∧
    Run Atomic.next (atomic s) tr' t' ∧ .answered 1 .notFound .empty ∈ seen Atomic.see tr' ∧
    t'.table sampleKey = some (sampleRecord none) := by
  obtain ⟨s, hs⟩ : ∃ s, launch JsonText.compact none sampleConfig 0 Fs.empty 0 = some s :=
    Option.isSome_iff_exists.mp (by decide)
  obtain ⟨tr, t, hrun, hp⟩ := exists_run (next JsonText.compact none) s
    [samplePost none, .ping sampleKey, .run 1 .done, .run 0 .done, .run 1 .done, .run 0 .done]
    (fun tr t ↦ tr.any samplePinged && t.connections.lookup sampleKey = some (sampleRecord none))
    (by cases hs; decide)
  rw [Bool.and_eq_true, List.any_eq_true, decide_eq_true_eq] at hp
  obtain ⟨⟨⟨pre, act, out⟩, he, hact⟩, htable⟩ := hp
  obtain ⟨tr', t', hrun', hseen, -, hlookup⟩ := registry_linearizable hs hrun
  refine ⟨s, tr', t', hs, hrun', ?_, (hlookup _).trans htable⟩
  rw [hseen, mem_seen]
  refine ⟨_, he, ?_⟩
  cases act with
  | run id io =>
    obtain ⟨rfl, rfl⟩ := of_decide_eq_true hact
    exact List.mem_singleton_self _
  | _ => cases hact

/-- A launch that has been answered with 201 is found by every look-up that is asked afterwards,
while its record has not expired, the process lives and nobody launches or closes under its key
again: a ping is answered 200, and traffic is dialed to its target or refused for want of a permit.
It was not disturbed by what was under way beside it, which is to say that nothing with its key was,
or that its key was new. -/
theorem acknowledged_is_found {config : Config} {now : UInt64} {files : Fs FilePath}
    {nextTask id : Nat} {key : String} {record : TunnelRecord} {l₀ l₁ l₂ : List Seen}
    (hlaunch : launch json stateFile config now files nextTask = some s)
    (h : Run (next json stateFile) s tr t) (hlive : record.isExpired t.now = false)
    (hseen : seen (see json stateFile) tr = l₀ ++ .asked id (.launch key record) ::
      (l₁ ++ .answered id .created (.record record) :: l₂))
    (hundisturbed : Atomic.Undisturbed (fun key ↦ s.connections.lookup key) id key record l₀ l₁)
    (hcalm : ∀ x ∈ l₂, x.Calm id key record) :
    ∀ id' use, .asked id' (.find key use) ∈ l₂ →
      (∀ status reply, .answered id' status reply ∈ l₂ → status ∈ Atomic.served use) ∧
      ∀ target, .dialed id' target ∈ l₂ → target = record.target := by
  obtain ⟨tr', t', hrun, hsame, hmirrors⟩ := mirrors.run (mirrors_launch hlaunch) h
  rw [← hsame] at hseen
  rw [← hmirrors.now] at hlive
  exact Atomic.launched_is_found hrun hlive hseen hundisturbed hcalm

/-- A tunnel is launched until it has expired, launched again and pinged. -/
def sampleFound : List Seen → Bool
  | [.asked n₁ _, .answered n₂ _ _, .ticked _, .asked n₃ request₃, .answered n₄ status₄ reply₄,
      .asked n₅ request₅, .answered n₆ _ reply₆] =>
    n₁ = 0 ∧ n₂ = 0 ∧ n₃ = 1 ∧ request₃ = .launch sampleKey (sampleRecord none) ∧ n₄ = 1 ∧
      status₄ = .created ∧ reply₄ = .record (sampleRecord none) ∧ n₅ = 2 ∧
      request₅ = .find sampleKey .ping ∧ n₆ = 2 ∧ reply₆ = .empty
  | _ => false

-- The ping that is asked after the second launch finds the tunnel.
theorem acknowledged_is_found_sample : ∃ s tr t status,
    launch JsonText.compact none sampleConfig 0 Fs.empty 0 = some s ∧
    Run (next JsonText.compact none) s tr t ∧
    .answered 2 status .empty ∈ seen (see JsonText.compact none) tr ∧
    status ∈ Atomic.served .ping := by
  obtain ⟨s, hs⟩ : ∃ s, launch JsonText.compact none sampleConfig 0 Fs.empty 0 = some s :=
    Option.isSome_iff_exists.mp (by decide)
  obtain ⟨tr, t, hrun, hp⟩ := exists_run (next JsonText.compact none) s
    [samplePost (some 10), .run 0 .done, .run 0 .done, .tick 20, samplePost none, .run 1 .done,
      .run 1 .done, .ping sampleKey, .run 2 .done, .run 2 .done, .run 2 .done]
    (fun tr _ ↦ sampleFound (seen (see JsonText.compact none) tr))
    (by cases hs; decide)
  unfold sampleFound at hp
  split at hp
  · rename_i request₁ n₂ status₂ reply₂ now₃ n₃ request₃ n₄ status₄ reply₄ n₅ request₅ n₆ status₆
      reply₆ hseen
    obtain ⟨rfl, rfl, rfl, rfl, rfl, rfl, rfl, rfl, rfl, rfl, rfl⟩ := of_decide_eq_true hp
    -- the first launch has been answered when the second one is asked
    have hclear : ∀ id request, ¬ Atomic.Pending
        [.asked 0 request₁, .answered 0 status₂ reply₂, .ticked now₃] id request := by
      rintro id request ⟨l₁, l₂, hl, hsince⟩
      match l₁, hl with
      | [], hl =>
        cases hl
        exact (hsince _ (List.mem_cons_self ..)).1 rfl
      | [_], hl => cases hl
      | [_, _], hl => cases hl
      | _ :: _ :: _ :: l₁, hl => cases l₁ <;> cases hl
    have hsplit : seen (see JsonText.compact none) tr =
        [.asked 0 request₁, .answered 0 status₂ reply₂, .ticked now₃] ++
          .asked 1 (.launch sampleKey (sampleRecord none)) ::
            ([] ++ .answered 1 .created (.record (sampleRecord none)) ::
              [.asked 2 (.find sampleKey .ping), .answered 2 status₆ .empty]) := hseen
    obtain ⟨hanswered, -⟩ := acknowledged_is_found hs hrun rfl hsplit
      (.alone (fun id request hpending ↦ absurd hpending (hclear id request))
        (List.forall_mem_nil _)) (by simp [Seen.Calm]) 2 .ping (List.mem_cons_self ..)
    exact ⟨s, tr, t, status₆, hs, hrun, by simp [hseen], hanswered status₆ .empty (by simp)⟩
  · cases hp

end

end LabStreamGate.Gateway
