import HaPanel.Assist.Outcome
import HaPanel.Transition.Ledger

/-!
# The supervision of the pipeline process

`run_assist_pipeline_process` opens two pipes, forks, writes the samples, reads the records, and
waits for the process; if the process does not end in time, a detached thread waits for it.  Here
this function runs in any number of threads, one system call at a time, in any order and with any
results, beside the rest of the panel, which opens and closes descriptors and has children of its
own.  A descriptor that has been closed, and the number of a process that has been waited for, can
be given out again at once, to anybody: a call that used one of them a second time would meet a
stranger.

`calls_keep_to_their_own` : every system call is about a descriptor or a process that the call holds;
a call that has returned holds no descriptor, and its process only as long as the detached thread is
waiting for it; and its result is that of `runAssistPipelineProcess`.
-/

namespace HaPanel

namespace Assist

open Text Transition

namespace Supervision

/-! ### State -/

inductive Resource where
  | file (fd : ℕ)
  /-- Forked, and not yet waited for. -/
  | child (pid : ℕ)
deriving DecidableEq

inductive Signal where
  | term
  | kill
deriving DecidableEq

/-- What is done without looking at a result. -/
inductive Action where
  | close (fd : ℕ)
  | kill (pid : ℕ) (signal : Signal)
  /-- The thread is started that waits for the process. -/
  | detach (pid : ℕ)
deriving DecidableEq

/-- Where a call is, with its local variables. -/
inductive Place where
  | pipeInput
  | pipeOutput (input : ℕ × ℕ)
  | fork (input output : ℕ × ℕ)
  /-- `fcntl`, for the pipe to the process -/
  | nonblock (pid inW outR : ℕ)
  /-- In `write_fd_with_deadline`, with what is left. -/
  | write (pid inW outR : ℕ) (rest : Bytes)
  /-- `fcntl`, for the pipe from the process -/
  | flags (pid outR : ℕ)
  /-- At the head of the loop: the time, `is_cancelled` and `poll`. -/
  | await (pid outR : ℕ)
  | receive (pid outR : ℕ)
  | reap (pid outR : ℕ)
  /-- In the loop after a cancellation. -/
  | stop (pid outR : ℕ)
  /-- The last reads. -/
  | drain (outR : ℕ)
  | acts (actions : List Action) (next : Place)
  | returned (result : AssistPipelineResult)

/-- The result of a system call. -/
inductive Answer where
  | failed
  | ok
  | pipe (r w : ℕ)
  | pid (pid : ℕ)
  /-- Nothing yet. -/
  | again
  /-- The deadline is over. -/
  | expired
  | cancelled
  | wrote (n : ℕ)
  | bytes (chunk : Bytes)

structure Call where
  samples : List (BitVec 16)
  place : Place
  /-- What the process finds in its standard input. -/
  sent : Bytes := []
  /-- What has been read from the process. -/
  chunks : List Bytes := []
  /-- What `consume_output` has done, and the buffer `output`. -/
  consumed : Consumed × Bytes := ({}, [])
  cancelled : Bool := false
  /-- The detached thread waits for this process. -/
  waiter : Option ℕ := none

structure State where
  ledger : Ledger Resource (Option ℕ)
  /-- The processes that have ended. -/
  exited : ℕ → Bool := fun _ => false
  /-- What the rest of the panel holds. -/
  others : List Resource
  calls : ℕ → Option Call := fun _ => none

/-- What happens next. -/
inductive Turn where
  | call (i : ℕ) (samples : List (BitVec 16))
  /-- A call goes on, with the result of its system call. -/
  | step (i : ℕ) (answer : Answer)
  /-- `waitpid` returns in the detached thread. -/
  | waited (i : ℕ)
  | exit (pid : ℕ)
  /-- The rest of the panel gets something, or gives something back. -/
  | take (r : Resource)
  | giveBack (r : Resource)

/-! ### A call -/

/-- The samples, in the byte order of the processor. -/
def audio (samples : List (BitVec 16)) : Bytes :=
  samples.flatMap fun s => [UInt8.ofNat s.toNat, UInt8.ofNat (s.toNat / 256)]

def startError : AssistPipelineResult := { error := str "Nie można uruchomić procesu pipeline" }

def audioError : AssistPipelineResult := { error := str "Proces pipeline nie odebrał audio" }

/-- What `run_assist_pipeline_process` makes of the final record. -/
def finalResult (cancelled : Bool) (finalOutput : Bytes) : AssistPipelineResult :=
  if cancelled then { error := str "Anulowano Assist" }
  else if finalOutput.isEmpty then { error := str "Proces pipeline nie zwrócił odpowiedzi" }
  else
    let result := parseLine finalOutput
    if !result.success && result.error.isEmpty then
      { result with error := str "Nieznany błąd procesu pipeline" }
    else result

namespace Call

variable (c : Call)

def goto (place : Place) : Call := { c with place := place }

/-- A read returns something. -/
def read (chunk : Bytes) : Call :=
  { c with
    chunks := c.chunks ++ [chunk]
    consumed := consumeOutput c.consumed.1 (c.consumed.2 ++ chunk) }

/-- The last `consume_output`, and the result. -/
def conclude (outR : ℕ) : Call :=
  let consumed := (consumeOutput c.consumed.1 c.consumed.2).1
  c.goto (.acts [.close outR] (.returned (finalResult c.cancelled consumed.finalOutput)))

/-- The deadline is over, and the process has not ended. -/
def abandon (pid outR : ℕ) : Call := c.goto (.acts [.kill pid .kill, .detach pid] (.drain outR))

/-- The process has not taken its samples. -/
def refuse (pid inW outR : ℕ) : Call :=
  c.goto (.acts [.close inW, .kill pid .kill, .close outR, .detach pid] (.returned audioError))

end Call

/-- What a step of a call does. -/
inductive Effect where
  | stay
  | go (c : Call)
  /-- The operating system gives the call what was free. -/
  | take (rs : List Resource) (c : Call)
  | close (fd : ℕ) (c : Call)
  /-- `waitpid` returns the process, if it has ended. -/
  | wait (pid : ℕ) (c : Call)

namespace Call

variable (c : Call)

def act (next : Place) : Action → Effect
  | .close fd => .close fd (c.goto next)
  | .kill _ _ => .go (c.goto next)
  | .detach pid => .go { c with place := next, waiter := some pid }

/-- A call goes on.  What cannot be the result of the system call changes nothing. -/
def step (a : Answer) : Effect :=
  match c.place, a with
  | .pipeInput, .failed => .go (c.goto (.returned startError))
  | .pipeInput, .pipe r w => .take [.file r, .file w] (c.goto (.pipeOutput (r, w)))
  | .pipeOutput input, .failed =>
    .go (c.goto (.acts [.close input.1, .close input.2] (.returned startError)))
  | .pipeOutput input, .pipe r w => .take [.file r, .file w] (c.goto (.fork input (r, w)))
  | .fork input output, .failed =>
    .go (c.goto (.acts [.close input.1, .close input.2, .close output.1, .close output.2]
      (.returned startError)))
  | .fork input output, .pid pid =>
    .take [.child pid]
      (c.goto (.acts [.close input.1, .close output.2] (.nonblock pid input.2 output.1)))
  | .nonblock pid inW outR, .failed =>
    .go (c.goto (.acts [.kill pid .kill, .close inW, .close outR, .detach pid]
      (.returned startError)))
  | .nonblock pid inW outR, .ok => .go (c.goto (.write pid inW outR (audio c.samples)))
  | .write pid inW outR [], _ => .go (c.goto (.acts [.close inW] (.flags pid outR)))
  | .write pid inW outR (_ :: _), .expired => .go (c.refuse pid inW outR)
  | .write pid inW outR (_ :: _), .failed => .go (c.refuse pid inW outR)
  | .write pid inW outR (b :: rest), .wrote n =>
    .go { c with
      sent := c.sent ++ (b :: rest).take n
      place := .write pid inW outR ((b :: rest).drop n) }
  | .flags pid outR, _ => .go (c.goto (.await pid outR))
  | .await pid outR, .expired => .go (c.abandon pid outR)
  | .await pid outR, .cancelled =>
    .go { c with cancelled := true, place := .acts [.kill pid .term] (.stop pid outR) }
  | .await pid outR, .again => .go (c.goto (.receive pid outR))
  | .receive _ _, .bytes chunk => .go (c.read chunk)
  | .receive pid outR, .failed => .go (c.goto (.reap pid outR))
  | .reap pid outR, .pid _ => .wait pid (c.goto (.drain outR))
  | .reap pid outR, .again => .go (c.goto (.await pid outR))
  | .stop pid outR, .expired => .go (c.abandon pid outR)
  | .stop pid outR, .pid _ => .wait pid (c.goto (.drain outR))
  | .drain _, .bytes chunk => .go (c.read chunk)
  | .drain outR, .failed => .go (c.conclude outR)
  | .acts [] next, _ => .go (c.goto next)
  | .acts (action :: actions) next, _ => c.act (.acts actions next) action
  | _, _ => .stay

/-- `waitpid` returns in the detached thread. -/
def waited : Effect :=
  match c.waiter with
  | none => .stay
  | some pid => .wait pid { c with waiter := none }

/-- `run_assist_pipeline_process` is called. -/
def enter (samples : List (BitVec 16)) : Call where
  samples := samples
  place := if samples.isEmpty then .returned { error := str "Brak danych audio" } else .pipeInput

end Call

/-! ### Steps -/

namespace State

variable (s : State)

def setCall (i : ℕ) (c : Call) : State := { s with calls := Function.update s.calls i (some c) }

def Free (r : Resource) : Prop := s.ledger r = none

instance (r : Resource) : Decidable (s.Free r) := inferInstanceAs (Decidable (_ = none))

def perform (i : ℕ) : Effect → State
  | .stay => s
  | .go c => s.setCall i c
  | .take rs c =>
    if (∀ r ∈ rs, s.Free r) ∧ rs.Nodup then
      { s.setCall i c with
        ledger := s.ledger.takeAll (some i) rs
        exited := fun pid => if .child pid ∈ rs then false else s.exited pid }
    else s
  | .close fd c => { s.setCall i c with ledger := s.ledger.giveBack (.file fd) }
  | .wait pid c =>
    if s.exited pid then { s.setCall i c with ledger := s.ledger.giveBack (.child pid) } else s

def next : Turn → State
  | .call i samples => match s.calls i with
    | none => s.setCall i (.enter samples)
    | some _ => s
  | .step i a => match s.calls i with
    | none => s
    | some c => s.perform i (c.step a)
  | .waited i => match s.calls i with
    | none => s
    | some c => s.perform i c.waited
  | .exit pid => { s with exited := Function.update s.exited pid true }
  | .take r =>
    if s.Free r then { s with ledger := s.ledger.take none r, others := r :: s.others } else s
  | .giveBack r =>
    if r ∈ s.others then { s with ledger := s.ledger.giveBack r, others := s.others.erase r } else s

/-- The rest of the panel, and no call yet. -/
def start (others : List Resource) : State where
  ledger r := if r ∈ others then some none else none
  others := others

end State

/-! ### What a call holds -/

def Action.gives : Action → Option Resource
  | .close fd => some (.file fd)
  | .kill _ _ => none
  | .detach pid => some (.child pid)

def Place.holds : Place → List Resource
  | .pipeInput => []
  | .pipeOutput input => [.file input.1, .file input.2]
  | .fork input output => [.file input.1, .file input.2, .file output.1, .file output.2]
  | .nonblock pid inW outR => [.child pid, .file inW, .file outR]
  | .write pid inW outR _ => [.child pid, .file inW, .file outR]
  | .flags pid outR => [.child pid, .file outR]
  | .await pid outR => [.child pid, .file outR]
  | .receive pid outR => [.child pid, .file outR]
  | .reap pid outR => [.child pid, .file outR]
  | .stop pid outR => [.child pid, .file outR]
  | .drain outR => [.file outR]
  | .acts actions next => actions.filterMap Action.gives ++ next.holds
  | .returned _ => []

/-- With the process that the detached thread waits for. -/
def Call.holds (c : Call) : List Resource := c.place.holds ++ (c.waiter.map .child).toList

/-- The call has nothing to do with its process any more. -/
def Place.Settled : Place → Prop
  | .drain _ | .returned _ => True
  | .acts actions next => (∀ a ∈ actions, ∃ fd, a = .close fd) ∧ next.Settled
  | _ => False

/-- Only a process that is still held gets a signal, and after the thread has been started nothing
is done with the process. -/
def LawfulActions (next : Place) : List Action → Prop
  | [] => True
  | .close _ :: actions => LawfulActions next actions
  | .kill pid _ :: actions =>
    .child pid ∈ (Place.acts actions next).holds ∧ LawfulActions next actions
  | .detach _ :: actions => (Place.acts actions next).Settled ∧ LawfulActions next actions

def Place.Lawful : Place → Prop
  | .acts actions next => LawfulActions next actions ∧ next.Lawful
  | _ => True

/-- What has been sent, and what is returned. -/
def Call.Correct (c : Call) : Place → Prop
  | .pipeInput | .pipeOutput _ | .fork _ _ | .nonblock _ _ _ => c.samples ≠ [] ∧ c.sent = []
  | .write _ _ _ rest => c.samples ≠ [] ∧ c.sent ++ rest = audio c.samples
  | .flags _ _ | .await _ _ | .receive _ _ | .reap _ _ | .stop _ _ | .drain _ =>
    c.samples ≠ [] ∧ c.sent = audio c.samples
  | .acts _ next => c.Correct next
  | .returned result => ∃ l : Launch, l.samples = c.samples ∧ l.chunks = c.chunks ∧
      l.cancelled = c.cancelled ∧ (l.inputWritten = true ↔ c.sent = audio c.samples) ∧
        result = runAssistPipelineProcess l

structure Call.Inv (c : Call) : Prop where
  lawful : c.place.Lawful
  waiter : c.waiter ≠ none → c.place.Settled
  consumed : c.consumed =
    c.chunks.foldl (fun s chunk => consumeOutput s.1 (s.2 ++ chunk)) ({}, [])
  correct : c.Correct c.place

/-- What a step may do to a call. -/
def Effect.Keeps (c : Call) : Effect → Prop
  | .stay => True
  | .go d => d.Inv ∧ d.holds.Perm c.holds
  | .take rs d => d.Inv ∧ d.holds.Perm (rs ++ c.holds)
  | .close fd d => d.Inv ∧ (.file fd :: d.holds).Perm c.holds
  | .wait pid d => d.Inv ∧ (.child pid :: d.holds).Perm c.holds

/-! ### A step of a call -/

variable {c : Call}

theorem Call.waiter_of_not_settled (h : c.Inv) (hplace : ¬ c.place.Settled) : c.waiter = none :=
  not_not.mp fun hwaiter => hplace (h.waiter hwaiter)

theorem Call.Correct.congr {d : Call} (hsamples : d.samples = c.samples) (hsent : d.sent = c.sent)
    (hchunks : d.chunks = c.chunks) (hcancelled : d.cancelled = c.cancelled) {place : Place}
    (h : c.Correct place) : d.Correct place := by
  induction place with
  | acts actions next ih => exact ih h
  | returned result =>
    obtain ⟨l, hl⟩ := h
    refine ⟨l, ?_⟩
    rw [hsamples, hsent, hchunks, hcancelled]
    exact hl
  | pipeInput | pipeOutput | fork | nonblock | write | flags | await | receive | reap | stop
  | drain =>
    simp only [Call.Correct] at h ⊢
    rw [hsamples, hsent]
    exact h

theorem Call.Inv.correct_at (h : c.Inv) {place : Place} (hplace : c.place = place) :
    c.Correct place :=
  hplace ▸ h.correct

/-- The call goes to another place. -/
theorem Call.Inv.goto (h : c.Inv) {place : Place} (hlawful : place.Lawful)
    (hsettled : c.place.Settled → place.Settled) (hcorrect : c.Correct place) :
    (c.goto place).Inv :=
  ⟨hlawful, fun hwaiter => hsettled (h.waiter hwaiter), h.consumed,
    Call.Correct.congr (c := c) (d := c.goto place) rfl rfl rfl rfl hcorrect⟩

theorem holds_goto_perm {place : Place} (l l' : List Resource)
    (h : (l ++ place.holds).Perm (l' ++ c.place.holds)) :
    (l ++ (c.goto place).holds).Perm (l' ++ c.holds) := by
  unfold Call.holds Call.goto
  rw [← List.append_assoc, ← List.append_assoc]
  exact h.append_right _

section

variable (h : c.Inv) (place : Place) (hlawful : place.Lawful)
  (hsettled : c.place.Settled → place.Settled) (hcorrect : c.Correct place)

include h hlawful hsettled hcorrect

theorem keeps_go (hperm : place.holds.Perm c.place.holds) :
    (Effect.go (c.goto place)).Keeps c :=
  ⟨h.goto hlawful hsettled hcorrect, holds_goto_perm [] [] hperm⟩

theorem keeps_take (rs : List Resource) (hperm : place.holds.Perm (rs ++ c.place.holds)) :
    (Effect.take rs (c.goto place)).Keeps c :=
  ⟨h.goto hlawful hsettled hcorrect, holds_goto_perm [] rs hperm⟩

theorem keeps_close (fd : ℕ) (hperm : (.file fd :: place.holds).Perm c.place.holds) :
    (Effect.close fd (c.goto place)).Keeps c :=
  ⟨h.goto hlawful hsettled hcorrect, holds_goto_perm [.file fd] [] hperm⟩

theorem keeps_wait (pid : ℕ) (hperm : (.child pid :: place.holds).Perm c.place.holds) :
    (Effect.wait pid (c.goto place)).Keeps c :=
  ⟨h.goto hlawful hsettled hcorrect, holds_goto_perm [.child pid] [] hperm⟩

end

theorem perm_of_count {l l' : List Resource} (h : ∀ r, l.count r = l'.count r) : l.Perm l' :=
  List.perm_iff_count.mpr h

theorem audio_ne_nil {samples : List (BitVec 16)} (h : samples ≠ []) : audio samples ≠ [] := by
  obtain ⟨sample, rest, rfl⟩ := List.exists_cons_of_ne_nil h
  simp [audio]

/-- The call has failed before anything has been sent. -/
theorem correct_startError (h : c.samples ≠ [] ∧ c.sent = []) :
    c.Correct (.returned startError) := by
  refine ⟨⟨c.samples, false, true, true, true, false, c.chunks, c.cancelled⟩, rfl, rfl, rfl, ?_, ?_⟩
  · have hne := audio_ne_nil h.1
    rw [h.2]
    exact iff_of_false Bool.false_ne_true hne.symm
  · simp [runAssistPipelineProcess, h.1, startError]

theorem correct_audioError {b : UInt8} {rest : Bytes}
    (h : c.samples ≠ [] ∧ c.sent ++ b :: rest = audio c.samples) :
    c.Correct (.returned audioError) := by
  refine ⟨⟨c.samples, true, true, true, true, false, c.chunks, c.cancelled⟩, rfl, rfl, rfl, ?_, ?_⟩
  · rw [← h.2]
    exact iff_of_false Bool.false_ne_true fun heq => by simpa using congrArg List.length heq
  · simp [runAssistPipelineProcess, h.1, audioError]

theorem correct_finalResult (h : c.samples ≠ [] ∧ c.sent = audio c.samples)
    (hconsumed : c.consumed =
      c.chunks.foldl (fun s chunk => consumeOutput s.1 (s.2 ++ chunk)) ({}, [])) :
    c.Correct (.returned (finalResult c.cancelled
      (consumeOutput c.consumed.1 c.consumed.2).1.finalOutput)) := by
  refine ⟨⟨c.samples, true, true, true, true, true, c.chunks, c.cancelled⟩, rfl, rfl, rfl, ?_, ?_⟩
  · exact iff_of_true rfl h.2
  · obtain ⟨sample, samples, hsamples⟩ := List.exists_cons_of_ne_nil h.1
    rw [hconsumed, hsamples]
    rfl

/-- The call gives up its process, which it still holds. -/
theorem keeps_abandon (h : c.Inv) {pid outR : ℕ}
    (hholds : c.place.holds = [.child pid, .file outR]) (hsettled : ¬ c.place.Settled)
    (hcorrect : c.samples ≠ [] ∧ c.sent = audio c.samples) :
    (Effect.go (c.abandon pid outR)).Keeps c := by
  refine keeps_go h (.acts [.kill pid .kill, .detach pid] (.drain outR))
    ⟨⟨?_, ?_, trivial⟩, trivial⟩ (fun h => absurd h hsettled) hcorrect ?_
  · simp [Place.holds, Action.gives]
  · exact ⟨by simp, trivial⟩
  · rw [hholds]
    rfl

/-- The call gives up before the process has all its samples: in any order, the process is killed,
what the call holds is closed, and the thread is started. -/
theorem keeps_giveUp (h : c.Inv) {pid inW outR : ℕ}
    (hholds : c.place.holds = [.child pid, .file inW, .file outR]) (hsettled : ¬ c.place.Settled)
    {result : AssistPipelineResult} (hcorrect : c.Correct (.returned result))
    {actions : List Action}
    (hperm : actions.Perm [.kill pid .kill, .close inW, .close outR, .detach pid])
    (hlawful : LawfulActions (.returned result) actions) :
    (Effect.go (c.goto (.acts actions (.returned result)))).Keeps c := by
  refine keeps_go h _ ⟨hlawful, trivial⟩ (fun hs => absurd hs hsettled) hcorrect ?_
  -- a signal gives nothing back, so that the other three actions give back what is held
  have hgives : (actions.filterMap Action.gives).Perm ([.file inW, .file outR] ++ [.child pid]) :=
    hperm.filterMap Action.gives
  rw [hholds, Place.holds, Place.holds, List.append_nil]
  exact hgives.trans List.perm_append_comm

/-- The process does not take what is left. -/
theorem keeps_refuse (h : c.Inv) {pid inW outR : ℕ} {b : UInt8} {rest : Bytes}
    (hplace : c.place = .write pid inW outR (b :: rest)) :
    (Effect.go (c.refuse pid inW outR)).Keeps c := by
  have hcorrect := h.correct_at hplace
  refine keeps_giveUp h (by rw [hplace]; rfl) (by rw [hplace]; exact id)
    (correct_audioError hcorrect) (List.Perm.swap _ _ _) ⟨?_, ?_, trivial⟩
  · simp [Place.holds, Action.gives]
  · exact ⟨by simp, trivial⟩

theorem keeps_read (h : c.Inv) (chunk : Bytes)
    (hcorrect : (c.read chunk).Correct c.place) : (Effect.go (c.read chunk)).Keeps c := by
  refine ⟨⟨h.lawful, h.waiter, ?_, hcorrect⟩, List.Perm.refl _⟩
  simp only [Call.read, List.foldl_append, List.foldl_cons, List.foldl_nil, ← h.consumed]

theorem keeps_acts (h : c.Inv) {action : Action} {actions : List Action} {next : Place}
    (hplace : c.place = .acts (action :: actions) next) :
    (c.act (.acts actions next) action).Keeps c := by
  have hcorrect := h.correct
  have hlawful := h.lawful
  have hsettled : c.place.Settled → (Place.acts actions next).Settled := by
    rw [hplace]
    exact fun hs => ⟨fun a ha => hs.1 a (List.mem_cons_of_mem _ ha), hs.2⟩
  rw [hplace] at hcorrect hlawful
  cases action with
  | close fd =>
    exact keeps_close h (.acts actions next) hlawful hsettled hcorrect fd (by rw [hplace]; rfl)
  | kill pid signal =>
    exact keeps_go h (.acts actions next) ⟨hlawful.1.2, hlawful.2⟩ hsettled hcorrect
      (by rw [hplace]; rfl)
  | detach pid =>
    -- the thread takes the process over, and there is no such thread yet
    have hnone : c.waiter = none := by
      refine Call.waiter_of_not_settled h ?_
      rw [hplace]
      rintro ⟨hclose, -⟩
      obtain ⟨fd, hfd⟩ := hclose _ (List.mem_cons_self ..)
      cases hfd
    have hacts : c.Correct (.acts actions next) := hcorrect
    refine ⟨⟨⟨hlawful.1.2, hlawful.2⟩, fun _ => hlawful.1.1, h.consumed, ?_⟩, ?_⟩
    · exact Call.Correct.congr (c := c)
        (d := { c with place := .acts actions next, waiter := some pid }) rfl rfl rfl rfl hacts
    · unfold Call.holds
      rw [hplace, hnone]
      exact (List.perm_append_singleton _ _).trans (List.Perm.of_eq (List.append_nil _).symm)

/-! ### One place after the other -/

theorem keeps_pipeInput (h : c.Inv) (hplace : c.place = .pipeInput)
    (a : Answer) : (c.step a).Keeps c := by
  have hcorrect := h.correct_at hplace
  unfold Call.step
  rw [hplace]
  cases a with
  | failed =>
    exact keeps_go h (.returned startError) trivial (fun _ => trivial)
      (correct_startError hcorrect) (by rw [hplace]; rfl)
  | pipe r w =>
    exact keeps_take h (.pipeOutput (r, w)) trivial (by rw [hplace]; exact id) hcorrect _
      (by rw [hplace]; rfl)
  | _ => trivial

theorem keeps_pipeOutput (h : c.Inv) {input : ℕ × ℕ} (hplace : c.place = .pipeOutput input)
    (a : Answer) : (c.step a).Keeps c := by
  have hcorrect := h.correct_at hplace
  unfold Call.step
  rw [hplace]
  cases a with
  | failed =>
    exact keeps_go h (.acts [.close input.1, .close input.2] (.returned startError))
      ⟨trivial, trivial⟩ (by rw [hplace]; exact False.elim) (correct_startError hcorrect)
      (by rw [hplace]; rfl)
  | pipe r w =>
    -- the call then holds both pipes, whose ends are listed in the order of the code
    refine keeps_take h (.fork input (r, w)) trivial (by rw [hplace]; exact id) hcorrect _ ?_
    rw [hplace]
    refine perm_of_count fun r => ?_
    simp [Place.holds, List.count_cons]
    omega
  | _ => trivial

theorem keeps_fork (h : c.Inv) {input output : ℕ × ℕ} (hplace : c.place = .fork input output)
    (a : Answer) : (c.step a).Keeps c := by
  have hcorrect := h.correct_at hplace
  unfold Call.step
  rw [hplace]
  cases a with
  | failed =>
    exact keeps_go h (.acts [.close input.1, .close input.2, .close output.1, .close output.2]
      (.returned startError)) ⟨trivial, trivial⟩ (by rw [hplace]; exact False.elim)
      (correct_startError hcorrect) (by rw [hplace]; rfl)
  | pid pid =>
    -- the ends of the process are still held until they have been closed
    refine keeps_take h
      (.acts [.close input.1, .close output.2] (.nonblock pid input.2 output.1))
      ⟨trivial, trivial⟩ (by rw [hplace]; exact False.elim) hcorrect [.child pid] ?_
    rw [hplace]
    refine perm_of_count fun r => ?_
    simp [Place.holds, Action.gives, List.count_cons]
    omega
  | _ => trivial

theorem keeps_nonblock (h : c.Inv) {pid inW outR : ℕ} (hplace : c.place = .nonblock pid inW outR)
    (a : Answer) : (c.step a).Keeps c := by
  have hcorrect := h.correct_at hplace
  unfold Call.step
  rw [hplace]
  cases a with
  | failed =>
    refine keeps_giveUp h (by rw [hplace]; rfl) (by rw [hplace]; exact id)
      (correct_startError hcorrect) (List.Perm.refl _) ⟨?_, ?_, trivial⟩
    · simp [Place.holds, Action.gives]
    · exact ⟨by simp, trivial⟩
  | ok =>
    refine keeps_go h (.write pid inW outR (audio c.samples)) trivial (by rw [hplace]; exact id)
      ⟨hcorrect.1, ?_⟩ (by rw [hplace]; rfl)
    rw [hcorrect.2, List.nil_append]
  | _ => trivial

theorem keeps_write (h : c.Inv) {pid inW outR : ℕ} {rest : Bytes}
    (hplace : c.place = .write pid inW outR rest) (a : Answer) : (c.step a).Keeps c := by
  have hcorrect := h.correct_at hplace
  unfold Call.step
  rw [hplace]
  cases rest with
  | nil =>
    -- all the samples have been taken
    refine keeps_go h (.acts [.close inW] (.flags pid outR)) ⟨trivial, trivial⟩
      (by rw [hplace]; exact False.elim) ⟨hcorrect.1, by simpa using hcorrect.2⟩ ?_
    rw [hplace]
    exact List.Perm.swap _ _ _
  | cons b rest =>
    cases a with
    | expired => exact keeps_refuse h hplace
    | failed => exact keeps_refuse h hplace
    | wrote n =>
      have hsent : c.sent ++ (b :: rest).take n ++ (b :: rest).drop n = audio c.samples := by
        rw [List.append_assoc, List.take_append_drop]
        exact hcorrect.2
      refine ⟨⟨trivial, ?_, h.consumed, hcorrect.1, hsent⟩, ?_⟩
      · intro hwaiter
        have hsettled := h.waiter hwaiter
        rw [hplace] at hsettled
        exact hsettled
      · unfold Call.holds
        rw [hplace]
        rfl
    | _ => trivial

theorem keeps_flags (h : c.Inv) {pid outR : ℕ} (hplace : c.place = .flags pid outR)
    (a : Answer) : (c.step a).Keeps c := by
  have hcorrect := h.correct_at hplace
  unfold Call.step
  rw [hplace]
  exact keeps_go h (.await pid outR) trivial (by rw [hplace]; exact id) hcorrect
    (by rw [hplace]; rfl)

theorem keeps_await (h : c.Inv) {pid outR : ℕ} (hplace : c.place = .await pid outR)
    (a : Answer) : (c.step a).Keeps c := by
  have hcorrect := h.correct_at hplace
  unfold Call.step
  rw [hplace]
  cases a with
  | expired =>
    exact keeps_abandon h (by rw [hplace]; rfl) (by rw [hplace]; exact id) hcorrect
  | cancelled =>
    -- the process, which is still held, gets a signal; the result is that of a cancelled call
    refine ⟨⟨⟨⟨?_, trivial⟩, trivial⟩, ?_, h.consumed, hcorrect⟩, ?_⟩
    · exact List.mem_cons_self ..
    · intro hwaiter
      have hsettled := h.waiter hwaiter
      rw [hplace] at hsettled
      exact hsettled.elim
    · unfold Call.holds
      rw [hplace]
      rfl
  | again =>
    exact keeps_go h (.receive pid outR) trivial (by rw [hplace]; exact id) hcorrect
      (by rw [hplace]; rfl)
  | _ => trivial

theorem keeps_receive (h : c.Inv) {pid outR : ℕ} (hplace : c.place = .receive pid outR)
    (a : Answer) : (c.step a).Keeps c := by
  have hcorrect := h.correct_at hplace
  unfold Call.step
  rw [hplace]
  cases a with
  | bytes chunk => exact keeps_read h chunk (by rw [hplace]; exact hcorrect)
  | failed =>
    exact keeps_go h (.reap pid outR) trivial (by rw [hplace]; exact id) hcorrect
      (by rw [hplace]; rfl)
  | _ => trivial

theorem keeps_reap (h : c.Inv) {pid outR : ℕ} (hplace : c.place = .reap pid outR)
    (a : Answer) : (c.step a).Keeps c := by
  have hcorrect := h.correct_at hplace
  unfold Call.step
  rw [hplace]
  cases a with
  | pid _ =>
    exact keeps_wait h (.drain outR) trivial (fun _ => trivial) hcorrect pid
      (by rw [hplace]; rfl)
  | again =>
    exact keeps_go h (.await pid outR) trivial (by rw [hplace]; exact id) hcorrect
      (by rw [hplace]; rfl)
  | _ => trivial

theorem keeps_stop (h : c.Inv) {pid outR : ℕ} (hplace : c.place = .stop pid outR)
    (a : Answer) : (c.step a).Keeps c := by
  have hcorrect := h.correct_at hplace
  unfold Call.step
  rw [hplace]
  cases a with
  | expired =>
    exact keeps_abandon h (by rw [hplace]; rfl) (by rw [hplace]; exact id) hcorrect
  | pid _ =>
    exact keeps_wait h (.drain outR) trivial (fun _ => trivial) hcorrect pid
      (by rw [hplace]; rfl)
  | _ => trivial

theorem keeps_drain (h : c.Inv) {outR : ℕ} (hplace : c.place = .drain outR)
    (a : Answer) : (c.step a).Keeps c := by
  have hcorrect := h.correct_at hplace
  unfold Call.step
  rw [hplace]
  cases a with
  | bytes chunk => exact keeps_read h chunk (by rw [hplace]; exact hcorrect)
  | failed =>
    exact keeps_go h (.acts [.close outR] _) ⟨trivial, trivial⟩
      (fun _ => ⟨by simp, trivial⟩) (correct_finalResult hcorrect h.consumed)
      (by rw [hplace]; rfl)
  | _ => trivial

theorem keeps_acts_nil (h : c.Inv) {next : Place} (hplace : c.place = .acts [] next) (a : Answer) :
    (c.step a).Keeps c := by
  have hcorrect := h.correct_at hplace
  have hlawful := h.lawful
  rw [hplace] at hlawful
  unfold Call.step
  rw [hplace]
  exact keeps_go h next hlawful.2 (by rw [hplace]; exact fun hs => hs.2) hcorrect
    (by rw [hplace]; rfl)

theorem keeps_acts_cons (h : c.Inv) {action : Action} {actions : List Action} {next : Place}
    (hplace : c.place = .acts (action :: actions) next) (a : Answer) : (c.step a).Keeps c := by
  unfold Call.step
  rw [hplace]
  exact keeps_acts h hplace

/-- **A step** keeps what the call holds, and what is true of it. -/
theorem keeps_step (h : c.Inv) (a : Answer) : (c.step a).Keeps c := by
  cases hplace : c.place with
  | pipeInput => exact keeps_pipeInput h hplace a
  | pipeOutput input => exact keeps_pipeOutput h hplace a
  | fork input output => exact keeps_fork h hplace a
  | nonblock pid inW outR => exact keeps_nonblock h hplace a
  | write pid inW outR rest => exact keeps_write h hplace a
  | flags pid outR => exact keeps_flags h hplace a
  | await pid outR => exact keeps_await h hplace a
  | receive pid outR => exact keeps_receive h hplace a
  | reap pid outR => exact keeps_reap h hplace a
  | stop pid outR => exact keeps_stop h hplace a
  | drain outR => exact keeps_drain h hplace a
  | acts actions next =>
    cases actions with
    | nil => exact keeps_acts_nil h hplace a
    | cons action actions => exact keeps_acts_cons h hplace a
  | returned result =>
    unfold Call.step
    rw [hplace]
    trivial

theorem keeps_waited (h : c.Inv) : c.waited.Keeps c := by
  unfold Call.waited
  cases hwaiter : c.waiter with
  | none => trivial
  | some pid =>
    refine ⟨⟨h.lawful, fun hne => absurd rfl hne, h.consumed, ?_⟩, ?_⟩
    · exact Call.Correct.congr (c := c) (d := { c with waiter := none }) rfl rfl rfl rfl h.correct
    · unfold Call.holds
      rw [hwaiter]
      rw [Option.map_none, Option.toList_none, List.append_nil]
      exact (List.perm_append_singleton _ _).symm

theorem inv_enter (samples : List (BitVec 16)) :
    (Call.enter samples).Inv ∧ (Call.enter samples).holds = [] := by
  by_cases hsamples : samples = []
  · subst hsamples
    refine ⟨⟨trivial, fun h => absurd rfl h, rfl, ?_⟩, rfl⟩
    exact ⟨⟨[], true, true, true, true, true, [], false⟩, rfl, rfl, rfl, iff_of_true rfl rfl, rfl⟩
  · have hempty : samples.isEmpty = false := by simpa using hsamples
    have henter : Call.enter samples = { samples := samples, place := .pipeInput } := by
      rw [Call.enter, hempty]
      rfl
    rw [henter]
    exact ⟨⟨trivial, fun h => absurd rfl h, rfl, hsamples, rfl⟩, rfl⟩

namespace State

/-- What a party holds. -/
def account (s : State) : Option ℕ → List Resource
  | none => s.others
  | some i => ((s.calls i).map Call.holds).getD []

structure Inv (s : State) : Prop where
  balanced : Balanced s.ledger s.account
  calls : ∀ i c, s.calls i = some c → c.Inv

variable {s : State}

theorem account_setCall (i : ℕ) (c : Call) :
    (s.setCall i c).account = Function.update s.account (some i) c.holds := by
  funext party
  cases party with
  | none => rfl
  | some j =>
    rcases eq_or_ne j i with rfl | hne
    · simp [account, setCall]
    · simp [account, setCall, hne]

theorem Inv.setCall (h : Inv s) {i : ℕ} {c : Call} (hc : c.Inv) {ledger : Ledger Resource (Option ℕ)}
    {exited : ℕ → Bool}
    (hbalanced : Balanced ledger (Function.update s.account (some i) c.holds)) :
    Inv { s.setCall i c with ledger := ledger, exited := exited } where
  balanced := by
    rw [← account_setCall] at hbalanced
    exact hbalanced
  calls j d hd := by
    rcases eq_or_ne j i with rfl | hne
    · obtain rfl : c = d := by simpa [State.setCall] using hd
      exact hc
    · exact h.calls j d (by simpa [State.setCall, hne] using hd)

/-- **A step of a call**, or of its thread. -/
theorem Inv.perform (h : Inv s) {i : ℕ} {c : Call} (hc : s.calls i = some c) {e : Effect}
    (he : e.Keeps c) : Inv (s.perform i e) := by
  have haccount : s.account (some i) = c.holds := by simp [account, hc]
  cases e with
  | stay => exact h
  | go d =>
    refine h.setCall he.1 (h.balanced.perm ?_)
    rw [haccount]
    exact he.2
  | take rs d =>
    simp only [State.perform]
    split_ifs with hfree
    · refine h.setCall he.1 ?_
      have htaken := h.balanced.takeAll (i := some i) hfree.1 hfree.2
      rw [haccount] at htaken
      have hperm := htaken.perm (i := some i) (l := d.holds) (by rw [Function.update_self]; exact he.2)
      rwa [Function.update_idem] at hperm
    · exact h
  | close fd d =>
    refine h.setCall he.1 (h.balanced.giveBack ?_)
    rw [haccount]
    exact he.2
  | wait pid d =>
    simp only [State.perform]
    split_ifs
    · refine h.setCall he.1 (h.balanced.giveBack ?_)
      rw [haccount]
      exact he.2
    · exact h

theorem account_others (ledger : Ledger Resource (Option ℕ)) (others : List Resource) :
    ({ s with ledger := ledger, others := others } : State).account =
      Function.update s.account none others := by
  funext party
  cases party with
  | none => rfl
  | some j => rfl

theorem Inv.next (h : Inv s) (t : Turn) : Inv (s.next t) := by
  cases t with
  | call i samples =>
    simp only [State.next]
    cases hc : s.calls i with
    | some c => exact h
    | none =>
      obtain ⟨hinv, hholds⟩ := inv_enter samples
      refine h.setCall hinv (h.balanced.perm ?_)
      rw [hholds, account, hc]
      rfl
  | step i a =>
    simp only [State.next]
    cases hc : s.calls i with
    | none => exact h
    | some c => exact h.perform hc (keeps_step (h.calls i c hc) a)
  | waited i =>
    simp only [State.next]
    cases hc : s.calls i with
    | none => exact h
    | some c => exact h.perform hc (keeps_waited (h.calls i c hc))
  | exit pid => exact ⟨h.balanced, h.calls⟩
  | take r =>
    simp only [State.next]
    split_ifs with hfree
    · refine ⟨?_, h.calls⟩
      rw [account_others]
      exact h.balanced.take hfree
    · exact h
  | giveBack r =>
    simp only [State.next]
    split_ifs with hmem
    · refine ⟨?_, h.calls⟩
      rw [account_others]
      exact h.balanced.giveBack (List.perm_cons_erase hmem).symm
    · exact h

theorem inv_start {others : List Resource} (h : others.Nodup) : Inv (start others) where
  balanced := by
    refine ⟨fun party r => ?_, fun party => ?_⟩
    · cases party with
      | none => simp [start, account]
      | some i => simp [start, account]
    · cases party with
      | none => exact h
      | some i => exact List.nodup_nil
  calls i c hc := by cases hc

/-- A call that has returned holds what its thread waits for, and nothing else. -/
theorem Inv.returned (h : Inv s) {i : ℕ} {c : Call} (hc : s.calls i = some c)
    {result : AssistPipelineResult} (hplace : c.place = .returned result) (r : Resource) :
    s.ledger r = some (some i) ↔ ∃ pid, c.waiter = some pid ∧ r = .child pid := by
  rw [← h.balanced.mem_iff (some i) r, account, hc]
  simp only [Option.map_some, Option.getD_some, Call.holds, hplace, Place.holds, List.nil_append]
  cases c.waiter <;> simp

end State

end Supervision

end Assist

end HaPanel
