import LabStreamGate.Desktop.EventPump
import LabStreamGate.Desktop.LogStream

/-!
# From the log file to the window

The reader of the log file and the pump of the user interface, with the channel between them.  The
reader is the only task that sends log entries.
-/

namespace LabStreamGate.Desktop.LogPipeline

open Function

structure State (α : Type) where
  tail : LogTail
  app : App α

inductive Action (α : Type)
  | tail (a : LogTail.Action)
  | app (a : App.Action α)

inductive Out
  | tail (o : LogTail.Out)
  | app (o : App.Out)
  deriving DecidableEq, Repr

section

variable {α : Type} (decode : Bytes → Option Text) (parse : Text → Option LogEntry)

def start (data : α) (apiPort : UInt16) : State α := ⟨.start, .start data apiPort⟩

/-- The app with what the reader sends. -/
def send (app : App α) (entries : List LogEntry) : App α :=
  { app with channel := app.channel ++ entries.map .log }

def isLog : App.Action α → Bool
  | .send (.log _) => true
  | _ => false

def next (s : State α) : Action α → Option (Out × State α)
  | .tail a =>
    (LogTail.next decode parse s.tail a).map fun r ↦
      (.tail r.1, ⟨r.2, send s.app (LogTail.entryOf r.1).toList⟩)
  | .app a =>
    if isLog a then none else (App.next s.app a).map fun r ↦ (.app r.1, ⟨s.tail, r.2⟩)

/-- The entries of the lines of a file. -/
def entriesOf (content : Bytes) : List LogEntry :=
  ((linesOf newline content).map dropCr).filterMap (LogTail.outcome decode parse)

end

/-! ## The reader and the pump in a run of both -/

abbrev Step (α : Type) := Event (State α) (Action α) Out

variable {α : Type} {decode : Bytes → Option Text} {parse : Text → Option LogEntry}
  {s t : State α} {a : Action α} {o : Out} {tr : List (Step α)} {data : α} {apiPort : UInt16}
  {entries : List LogEntry}

def tailSteps (e : Step α) : LogTail.Trace :=
  match e.act, e.out with
  | .tail a, .tail o => [⟨e.pre.tail, a, o⟩]
  | _, _ => []

/-- For the app, an entry of the reader is one that somebody sends. -/
def appSteps (e : Step α) : App.Trace α :=
  match e.act, e.out with
  | .tail _, .tail (.emitted entry) => [⟨e.pre.app, .send (.log entry), .silent⟩]
  | .app a, .app o => [⟨e.pre.app, a, o⟩]
  | _, _ => []

def tailTrace (tr : List (Step α)) : LogTail.Trace := tr.flatMap tailSteps

def appTrace (tr : List (Step α)) : App.Trace α := tr.flatMap appSteps

/-- What an action can come to. -/
inductive Moved (decode : Bytes → Option Text) (parse : Text → Option LogEntry) (s : State α) :
    Action α → Out → State α → Prop
  | tail {a : LogTail.Action} {o : LogTail.Out} {tail : LogTail} :
      LogTail.next decode parse s.tail a = some (o, tail) →
      Moved decode parse s (.tail a) (.tail o) ⟨tail, send s.app (LogTail.entryOf o).toList⟩
  | app {a : App.Action α} {o : App.Out} {app : App α} : isLog a = false →
      App.next s.app a = some (o, app) → Moved decode parse s (.app a) (.app o) ⟨s.tail, app⟩

theorem next_moved (h : next decode parse s a = some (o, t)) : Moved decode parse s a o t := by
  cases a with
  | tail a =>
    simp only [next, Option.map_eq_some_iff, Prod.mk.injEq] at h
    obtain ⟨⟨o, tail⟩, hnext, rfl, rfl⟩ := h
    exact .tail hnext
  | app a =>
    simp only [next, Option.ite_none_left_eq_some, Option.map_eq_some_iff, Prod.mk.injEq,
      Bool.not_eq_true] at h
    obtain ⟨hlog, ⟨o, app⟩, hnext, rfl, rfl⟩ := h
    exact .app hlog hnext

theorem tail_run (h : Run (next decode parse) s tr t) :
    Run (LogTail.next decode parse) s.tail (tailTrace tr) t.tail := by
  refine h.project State.tail tailSteps ?_
  intro v a o w hnext
  cases next_moved hnext with
  | tail htail => exact .single htail
  | app => exact .nil

theorem app_run (h : Run (next decode parse) s tr t) :
    Run App.next s.app (appTrace tr) t.app := by
  refine h.project State.app appSteps ?_
  intro v a o w hnext
  cases next_moved hnext with
  | @tail a o tail htail =>
    cases o with
    | emitted entry => exact .single rfl
    | silent =>
      simp only [LogTail.entryOf, Option.toList_none, send, List.map_nil, List.append_nil]
      exact .nil
    | failed =>
      simp only [LogTail.entryOf, Option.toList_none, send, List.map_nil, List.append_nil]
      exact .nil
  | app _ happ => exact .single happ

/-- What the reader emits is what is sent to the app. -/
theorem sent_emitted (h : Run (next decode parse) s tr t) :
    (App.sent (appTrace tr)).filterMap App.logEntry = LogTail.emitted (tailTrace tr) := by
  induction h with
  | nil => rfl
  | @snoc tr v a o w _ hnext ih =>
    have hstep : (App.sent (appSteps ⟨v, a, o⟩)).filterMap App.logEntry =
        LogTail.emitted (tailSteps ⟨v, a, o⟩) := by
      cases next_moved hnext with
      | @tail a o tail htail => cases o <;> rfl
      | @app a o app hlog happ =>
        cases a with
        | send event =>
          cases event with
          | log entry => cases hlog
          | _ => rfl
        | _ => rfl
    rw [appTrace, tailTrace, List.flatMap_append, List.flatMap_append, List.flatMap_singleton,
      List.flatMap_singleton]
    rw [appTrace, tailTrace] at ih
    unfold App.sent LogTail.emitted at ih hstep ⊢
    rw [List.filterMap_append, List.filterMap_append, List.filterMap_append, ih, hstep]

/-! ## What the window shows of the file -/

/-- The shared buffer and the open windows have the latest of the entries. -/
def Shows (s : State α) (entries : List LogEntry) : Prop :=
  s.app.shared.logs = entries.rtake maxLogs ∧
    ∀ handle root, s.app.windows handle = some root → root.logs = entries.rtake maxLogs

/-- Whole lines have been read of what there is of the file, and their entries are shown, in the
batch of the pump, or in the channel. -/
def Follows (decode : Bytes → Option Text) (parse : Text → Option LogEntry) (content : Bytes)
    (s : State α) : Prop :=
  ∃ read done, content = read ++ s.tail.unread ∧ IsWhole newline read ∧
    entriesOf decode parse read =
      done ++ s.app.pump.batch ++ s.app.channel.filterMap App.logEntry ∧ Shows s done

theorem follows (h : Run (next decode parse) (start data apiPort) tr s)
    (hkeeps : ∀ e ∈ tailTrace tr, LogTail.KeepsLines e)
    (hquit : ∀ e ∈ appTrace tr, e.act ≠ .send .quit) :
    Follows decode parse (LogTail.appeared (tailTrace tr)) s := by
  obtain ⟨read, happeared, hwhole, hemitted⟩ := LogTail.followed (tail_run h) hkeeps
  have hpumped := App.pumped (app_run h) hquit
  obtain ⟨done, htaken, hlogs⟩ := hpumped.buffer
  refine ⟨read, done, happeared, hwhole, ?_, hlogs, fun handle root hroot ↦ ?_⟩
  · rw [← htaken, hpumped.entries, sent_emitted h, hemitted]
    rfl
  · rw [(hpumped.windows handle root hroot).2, hlogs]

/-! ## Reader and pump left to themselves -/

theorem send_append (app : App α) (entries entries' : List LogEntry) :
    send (send app entries) entries' = send app (entries ++ entries') := by
  simp [send]

theorem exists_tail {tail tail' : LogTail} {app : App α} {steps : LogTail.Trace}
    (h : Run (LogTail.next decode parse) tail steps tail') :
    ∃ tr, Run (next decode parse) ⟨tail, app⟩ tr ⟨tail', send app (LogTail.emitted steps)⟩ ∧
      tailTrace tr = steps ∧ ∀ e ∈ appTrace tr, e.act ≠ .send .quit := by
  induction h with
  | nil =>
    refine ⟨[], ?_, rfl, List.forall_mem_nil _⟩
    simp only [LogTail.emitted, List.filterMap_nil, send, List.map_nil, List.append_nil]
    exact .nil
  | @snoc steps v a o w _ hnext ih =>
    obtain ⟨tr, hrun, htail, hquit⟩ := ih
    have hstep : next decode parse ⟨v, send app (LogTail.emitted steps)⟩ (.tail a) =
        some (.tail o, ⟨w, send app (LogTail.emitted (steps ++ [⟨v, a, o⟩]))⟩) := by
      rw [next, hnext, Option.map_some, send_append, LogTail.emitted_snoc]
    refine ⟨_, hrun.snoc hstep, ?_, ?_⟩
    · rw [tailTrace, List.flatMap_append, List.flatMap_singleton]
      exact congrArg (· ++ [⟨v, a, o⟩]) htail
    · rw [appTrace, List.flatMap_append, List.forall_mem_append, List.flatMap_singleton]
      refine ⟨hquit, ?_⟩
      cases o with
      | emitted entry => exact List.forall_mem_singleton.mpr fun heq ↦ by cases heq
      | _ => exact List.forall_mem_nil _

theorem exists_app {tail : LogTail} {app app' : App α} {steps : App.Trace α}
    (h : Run App.next app steps app') (hacts : ∀ e ∈ steps, e.act = .recv ∨ e.act = .tryRecv) :
    ∃ tr, Run (next decode parse) ⟨tail, app⟩ tr ⟨tail, app'⟩ ∧ tailTrace tr = [] ∧
      appTrace tr = steps := by
  induction h with
  | nil => exact ⟨[], .nil, rfl, rfl⟩
  | @snoc steps v a o w _ hnext ih =>
    rw [List.forall_mem_append, List.forall_mem_singleton] at hacts
    obtain ⟨tr, hrun, htail, happ⟩ := ih hacts.1
    have hlog : isLog a = false := by
      obtain rfl | rfl : a = .recv ∨ a = .tryRecv := hacts.2 <;> rfl
    have hstep : next decode parse ⟨tail, v⟩ (.app a) = some (.app o, ⟨tail, w⟩) := by
      rw [next, hlog, hnext]
      rfl
    refine ⟨_, hrun.snoc hstep, ?_, ?_⟩
    · rw [tailTrace, List.flatMap_append, List.flatMap_singleton]
      exact congrArg (· ++ []) htail
    · rw [appTrace, List.flatMap_append, List.flatMap_singleton]
      exact congrArg (· ++ [⟨v, a, o⟩]) happ

theorem tailTrace_append (tr tr' : List (Step α)) :
    tailTrace (tr ++ tr') = tailTrace tr ++ tailTrace tr' := List.flatMap_append

theorem appTrace_append (tr tr' : List (Step α)) :
    appTrace (tr ++ tr') = appTrace tr ++ appTrace tr' := List.flatMap_append

/-- At every moment of a run whose reader does not cut a line, the window shows the latest entries
of a first part of the file, and the entries of the lines read since then are on their way to it in
their order.  Left to itself, such a run comes to show those of all of the file. -/
theorem window_follows_file (h : Run (next decode parse) (start data apiPort) tr s)
    (hkeeps : ∀ e ∈ tailTrace tr, LogTail.KeepsLines e)
    (hquit : ∀ e ∈ appTrace tr, e.act ≠ .send .quit) :
    Follows decode parse (LogTail.appeared (tailTrace tr)) s ∧
      (IsWhole newline s.tail.unread →
        ∃ tr' t, Run (next decode parse) s tr' t ∧ LogTail.appeared (tailTrace tr') = [] ∧
          Shows t (entriesOf decode parse (LogTail.appeared (tailTrace tr)))) := by
  refine ⟨follows h hkeeps hquit, fun hwhole ↦ ?_⟩
  -- the reader comes to the end of the file first, then the pump to that of the channel
  obtain ⟨steps, tail', hrest, hnothing, hkeeps₁, hread⟩ :=
    @LogTail.exists_rest decode parse _ hwhole
  obtain ⟨tr₁, hrun₁, htail₁, hquit₁⟩ := @exists_tail _ decode parse _ _ s.app _ hrest
  have hquit' : ∀ e ∈ appTrace (tr ++ tr₁), e.act ≠ .send .quit := by
    rw [appTrace_append, List.forall_mem_append]
    exact ⟨hquit, hquit₁⟩
  obtain ⟨steps₂, app', hidle, hacts, -, hchannel, hpump⟩ :=
    (App.pumped (app_run (h.append hrun₁)) hquit').exists_idle rfl
  obtain ⟨tr₂, hrun₂, htail₂, happ₂⟩ := @exists_app _ decode parse tail' _ _ _ hidle hacts
  have htail : tailTrace (tr₁ ++ tr₂) = steps := by
    rw [tailTrace_append, htail₁, htail₂, List.append_nil]
  have happeared : LogTail.appeared (tailTrace (tr ++ (tr₁ ++ tr₂))) =
      LogTail.appeared (tailTrace tr) := by
    rw [tailTrace_append, htail, LogTail.appeared, List.flatMap_append]
    exact (congrArg _ hnothing).trans (List.append_nil _)
  have hall := follows (h.append (hrun₁.append hrun₂)) (by
    rw [tailTrace_append, htail, List.forall_mem_append]
    exact ⟨hkeeps, hkeeps₁⟩) (by
    rw [← List.append_assoc, appTrace_append, happ₂, List.forall_mem_append]
    refine ⟨hquit', fun e he hact ↦ ?_⟩
    rcases hacts e he with ha | ha <;> rw [hact] at ha <;> cases ha)
  refine ⟨tr₁ ++ tr₂, ⟨tail', app'⟩, hrun₁.append hrun₂, by rw [htail, hnothing], ?_⟩
  obtain ⟨read, done, hcontent, -, hentries, hshows⟩ := hall
  rw [happeared, hread, List.append_nil] at hcontent
  have hbatch : app'.pump.batch = [] := by
    rw [hpump]
    rfl
  rw [hchannel, hbatch, List.filterMap_nil, List.append_nil, List.append_nil] at hentries
  rw [hcontent, hentries]
  exact hshows


-- A line has appeared in the file, and nobody has read it yet.
theorem window_follows_file_sample : ∃ (tr : List (Step Unit)) (t : State Unit),
    Run (next LogTail.sampleDecode LogTail.sampleParse) (start () 3307) tr t ∧
      t.app.shared.logs = [LogTail.sampleEntry] := by
  have happear : Run (next LogTail.sampleDecode LogTail.sampleParse) (start () 3307) _ _ :=
    .single (a := .tail (.appear LogTail.sampleBytes)) rfl
  have hfollows := window_follows_file happear (List.forall_mem_singleton.mpr nofun)
    (List.forall_mem_nil _)
  obtain ⟨tr', t, hrun, -, hlogs, -⟩ := hfollows.2 LogTail.sampleBytes_lines.1
  have hentries : (entriesOf LogTail.sampleDecode LogTail.sampleParse
      LogTail.sampleBytes).rtake maxLogs = [LogTail.sampleEntry] := by decide +kernel
  exact ⟨_, t, happear.append hrun, hlogs.trans hentries⟩
end LabStreamGate.Desktop.LogPipeline
