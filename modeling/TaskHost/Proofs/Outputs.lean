/-
# The lines of a host as a record of what it was told

Whatever happens on a floor, or is asked of a session, minutes are taken of who told the host
what (`Floor.minutes`, `Session.TellsAll`). A floor's workers take their turns in any order,
may be given other thresholds meanwhile, and their host may be called by anybody. A session
carries out one command after the other; what it brings is what undisturbed turns bring.

The minutes tell all that is printed and all that is logged (`Minutes.Tell`): the lines of the
host go on by the lines of the notices, in their order, and by no others; the log of a worker
records its entries, as long as it is given no other threshold.

Key definitions: `Minutes`, `Minutes.Tell`, `Floor.Incident`, `Floor.minutes`,
`Session.Tells`.
Key theorems: `Floor.tell_minutes`, `Session.exec_assigned`, `Session.tell_request`,
`output_is_minutes`.
-/
import TaskHost.Proofs.Drained
import TaskHost.Proofs.Isolation
import TaskHost.Proofs.Notices
import TaskHost.Proofs.SpoiledSessions

namespace TaskHost

/-! ### Minutes -/

/-- Who told a host what: a worker, by its place, or anybody else. -/
abbrev Minutes := List (Option Nat × Notice)

/-- Whether the entries of each worker's log bear the worker's name. -/
def Signed (ws : List Worker) : Prop := ∀ w ∈ ws, w.logger.source = w.handle.worker

namespace Minutes

variable {m n : Minutes} {kept : Nat → Prop} {o o' o'' : List PrintedLine}
  {ws ws' ws'' : List Worker} {i : Nat}

/-- What was told by the same worker, or by somebody else. -/
def told (who : Option Nat) (ns : List Notice) : Minutes := ns.map fun n => (who, n)

/-- The lines that are printed. -/
def lines (m : Minutes) : List PrintedLine := m.flatMap fun n => n.2.lines

/-- The entries that a worker records. -/
def entriesOf (i : Nat) (m : Minutes) : List LogEntry :=
  m.filterMap fun n => if n.1 = some i then n.2.recorded? else none

/-- What a worker's log keeps: it records the worker's entries, which bear its source and its
threshold. -/
structure Log (m : Minutes) (i : Nat) (l l' : Logger) : Prop where
  recorded : l' = l.record (m.entriesOf i)
  signed : ∀ source threshold e, (some i, .entry source threshold e) ∈ m →
    source = l.source ∧ threshold = l.threshold

/-- Whether minutes tell how the lines of a host and the logs of workers went on. Other workers
may have joined. The logs are told of the workers that keep theirs; the entries of all are
signed. -/
structure Tell (m : Minutes) (kept : Nat → Prop) (o o' : List PrintedLine)
    (ws ws' : List Worker) : Prop where
  output : o' = o ++ m.lines
  workers : ∀ i w, ws[i]? = some w → ∃ w', ws'[i]? = some w' ∧ w'.handle = w.handle
    ∧ (kept i → m.Log i w.logger w'.logger)
  signed : Signed ws → Signed ws' ∧ ∀ i source threshold e,
    (some i, .entry source threshold e) ∈ m → ∃ w', ws'[i]? = some w' ∧ source = w'.handle.worker

@[simp] theorem lines_append (m n : Minutes) : (m ++ n).lines = m.lines ++ n.lines :=
  List.flatMap_append

@[simp] theorem entriesOf_append (i : Nat) (m n : Minutes) :
    (m ++ n).entriesOf i = m.entriesOf i ++ n.entriesOf i := List.filterMap_append

theorem lines_told (who : Option Nat) (ns : List Notice) :
    (told who ns).lines = ns.flatMap Notice.lines := by
  rw [lines, told, List.flatMap_map]

theorem entriesOf_told (i : Nat) (ns : List Notice) :
    (told (some i) ns).entriesOf i = ns.filterMap Notice.recorded? := by
  simp [entriesOf, told, List.filterMap_map]

theorem mem_told {who who' : Option Nat} {n : Notice} {ns : List Notice}
    (member : (who', n) ∈ told who ns) : who' = who ∧ n ∈ ns := by
  obtain ⟨x, listed, same⟩ := List.mem_map.mp member
  obtain ⟨rfl, rfl⟩ := Prod.mk.inj same
  exact ⟨rfl, listed⟩

theorem Log.still (other : ∀ n, (some i, n) ∉ m) (l : Logger) : m.Log i l l := by
  refine ⟨?_, fun _ _ _ member => absurd member (other _)⟩
  have none : m.entriesOf i = [] := by
    refine List.filterMap_eq_nil_iff.mpr fun n member => if_neg fun own => other n.2 ?_
    rw [← own]
    exact member
  rw [none, Logger.record_nil]

theorem Log.trans {l l' l'' : Logger} (first : m.Log i l l') (second : n.Log i l' l'') :
    (m ++ n).Log i l l'' := by
  refine ⟨?_, fun source threshold e member => ?_⟩
  · rw [second.recorded, first.recorded, entriesOf_append, Logger.record_record]
  · rcases List.mem_append.mp member with earlier | later
    · exact first.signed source threshold e earlier
    · have signed := second.signed source threshold e later
      rwa [first.recorded] at signed

namespace Tell

theorem trans (first : m.Tell kept o o' ws ws') (second : n.Tell kept o' o'' ws' ws'') :
    (m ++ n).Tell kept o o'' ws ws'' := by
  refine ⟨?_, fun i w member => ?_, fun signed => ?_⟩
  · rw [second.output, first.output, lines_append, List.append_assoc]
  · obtain ⟨w', member', handle, log⟩ := first.workers i w member
    obtain ⟨w'', member'', handle', log'⟩ := second.workers i w' member'
    exact ⟨w'', member'', handle'.trans handle, fun keeps => (log keeps).trans (log' keeps)⟩
  · obtain ⟨signed', earlier⟩ := first.signed signed
    obtain ⟨signed'', later⟩ := second.signed signed'
    refine ⟨signed'', fun i source threshold e member => ?_⟩
    rcases List.mem_append.mp member with before | after
    · obtain ⟨w', member', named⟩ := earlier i source threshold e before
      obtain ⟨w'', member'', handle, -⟩ := second.workers i w' member'
      exact ⟨w'', member'', by rw [handle, named]⟩
    · exact later i source threshold e after

theorem mono (tell : m.Tell kept o o' ws ws') {kept' : Nat → Prop}
    (fewer : ∀ i, kept' i → kept i) : m.Tell kept' o o' ws ws' := by
  refine ⟨tell.output, fun i w member => ?_, tell.signed⟩
  obtain ⟨w', member', handle, log⟩ := tell.workers i w member
  exact ⟨w', member', handle, fun keeps => log (fewer i keeps)⟩

/-- No worker has told anything, and one may have joined. -/
theorem direct {ns : List Notice} (output : o' = o ++ ns.flatMap Notice.lines)
    (workers : ws' = ws ∨ ∃ w, ws' = ws ++ [w] ∧ w.logger.source = w.handle.worker) :
    (told none ns).Tell kept o o' ws ws' := by
  have nobody (i : Nat) (n : Notice) : (some i, n) ∉ told none ns :=
    fun member => nomatch (mem_told member).1
  refine ⟨by rw [output, lines_told], fun i w member => ⟨w, ?_, rfl, fun _ => ?_⟩, fun signed =>
    ⟨?_, fun i _ _ _ member => absurd member (nobody i _)⟩⟩
  · rcases workers with rfl | ⟨new, rfl, -⟩
    · exact member
    · rw [List.getElem?_append_left (List.getElem?_eq_some_iff.mp member).1]
      exact member
  · exact .still (nobody i) w.logger
  · rcases workers with rfl | ⟨new, rfl, named⟩
    · exact signed
    · intro w member
      rcases List.mem_append.mp member with old | last
      · exact signed w old
      · exact List.mem_singleton.mp last ▸ named

theorem silent (output : o' = o)
    (workers : ws' = ws ∨ ∃ w, ws' = ws ++ [w] ∧ w.logger.source = w.handle.worker) :
    Tell [] kept o o' ws ws' := by
  have none : o' = o ++ [].flatMap Notice.lines := by rw [output]; exact (List.append_nil o).symm
  exact direct none workers

theorem refl (o : List PrintedLine) (ws : List Worker) : Tell [] kept o o ws ws :=
  silent rfl (.inl rfl)

/-- A worker has told something. -/
theorem work (kept : Nat → Prop) {s t : Station} {ns : List Notice} (prints : s.Prints ns t)
    (handle : t.worker.handle = s.worker.handle) (member : ws[i]? = some s.worker) :
    (told (some i) ns).Tell kept s.host.output t.host.output ws (ws.set i t.worker) := by
  have there : (ws.set i t.worker)[i]? = some t.worker :=
    List.getElem?_set_self (List.getElem?_eq_some_iff.mp member).1
  refine ⟨by rw [prints.output, lines_told], fun j w present => ?_, fun signed => ⟨?_, ?_⟩⟩
  · by_cases same : j = i
    · subst same
      obtain rfl := Option.some.inj (member.symm.trans present)
      refine ⟨t.worker, there, handle, fun _ => ⟨?_, fun source threshold e known => ?_⟩⟩
      · rw [prints.logger, entriesOf_told]
      · exact prints.signed source threshold e (mem_told known).2
    · refine ⟨w, by rw [List.getElem?_set_ne (Ne.symm same), present], rfl, fun _ => ?_⟩
      exact .still (fun n known => same (Option.some.inj (mem_told known).1)) w.logger
  · intro w present
    rcases List.mem_or_eq_of_mem_set present with old | rfl
    · exact signed w old
    · have source := signed s.worker (List.mem_of_getElem? member)
      rw [prints.logger, handle]
      exact source
  · intro j source threshold e known
    obtain ⟨own, listed⟩ := mem_told known
    obtain rfl := Option.some.inj own
    refine ⟨t.worker, there, ?_⟩
    rw [(prints.signed source threshold e listed).1, handle]
    exact signed s.worker (List.mem_of_getElem? member)

/-- A worker is given another threshold, and tells nothing. -/
theorem threshold (o : List PrintedLine) (ws : List Worker) (i : Nat) (level : LogLevel) :
    Tell [] (· ≠ i) o o ws (ws.modify i (·.withLogThreshold level)) := by
  refine ⟨(List.append_nil o).symm, fun j w member => ?_, fun signed =>
    ⟨fun w present => ?_, fun _ _ _ _ member => nomatch member⟩⟩
  · by_cases same : i = j
    · refine ⟨w.withLogThreshold level, ?_, rfl, fun other => absurd same.symm other⟩
      simp [same, member]
    · refine ⟨w, ?_, rfl, fun _ => .still (fun _ => List.not_mem_nil) w.logger⟩
      simp [same, member]
  · obtain ⟨j, there⟩ := List.mem_iff_getElem?.mp present
    rw [List.getElem?_modify] at there
    obtain ⟨v, old, rfl⟩ := Option.map_eq_some_iff.mp there
    split
    · rfl
    · exact signed v (List.mem_of_getElem? old)

end Tell
end Minutes

theorem signed_ofHandle (handle : ContextHandle) (threshold : Option LogLevel) :
    ((threshold.map (Worker.ofHandle handle).withLogThreshold).getD
        (Worker.ofHandle handle)).logger.source
      = ((threshold.map (Worker.ofHandle handle).withLogThreshold).getD
        (Worker.ofHandle handle)).handle.worker := by
  cases threshold <;> rfl

/-! ### Floors -/

/-- What a call tells its host. -/
def Host.Call.notice? : Host.Call → Option Notice
  | .request (.signal _) => some .signal
  | .request (.print line isError) => some (.print line isError)
  | _ => none

/-- A call prints if it is a signal or a print. -/
theorem Host.output_serve (h : Host) (call : Host.Call) :
    (call.serve h).output = h.output ++ call.notice?.toList.flatMap Notice.lines := by
  have silent {k : Host} (same : k.output = h.output) :
      k.output = h.output ++ (none : Option Notice).toList.flatMap Notice.lines := by
    rw [same]
    exact (List.append_nil _).symm
  cases call with
  | request r =>
    cases r with
    | spawn d => exact silent ((Host.mute_spawn d).output h)
    | register id task => exact silent ((Host.mute_registerTask id task).output h)
    | pull id => exact silent ((Host.mute_pull id).output h)
    | signal id => exact Host.output_signal h id
    | remove path => exact silent rfl
    | print line isError => rfl
    | advance d => exact silent rfl
    | drive => exact silent (Host.mute_drive.output h)
  | start op =>
    cases op with
    | timer delay => exact silent ((Host.mute_setTimeout delay).output h)
    | read | write | fetch => exact silent rfl
  | sleep delay => exact silent ((Host.mute_sleep delay).output h)

namespace Floor

/-- What happens on a floor, or to it: an event, another threshold for a clerk, or that a file
or a route is provided. -/
inductive Incident where
  | event (e : Event)
  | setThreshold (clerk : Nat) (level : LogLevel)
  | provideFile (path : String) (contents : Bytes)
  | provideRoute (r : FetchResponse)

def workers (f : Floor) : List Worker := f.clerks.map Clerk.worker

/-- The floor after an incident. -/
def undergo (f : Floor) : Incident → Floor
  | .event e => f.happen e
  | .setThreshold i level =>
    { f with clerks := f.clerks.modify i fun c =>
        { c with worker := c.worker.withLogThreshold level } }
  | .provideFile path contents => { f with host := f.host.withFile path contents }
  | .provideRoute r => { f with host := f.host.withRoute r }

def undergoAll (f : Floor) (is : List Incident) : Floor := is.foldl undergo f

/-- The minutes of an incident. -/
def minutesOf (f : Floor) : Incident → Minutes
  | .event (.turns i) =>
    .told (some i) ((f.clerks[i]?.bind fun c => (c.at f.host).notice?).toList)
  | .event (.calls call) => .told none call.notice?.toList
  | .provideFile path contents =>
    match (f.host.files.write path contents).2 with
    | .ok () => []
    | .error e =>
      .told none [.print s!"[host] could not preload {path}: {e.message}\n" true]
  | _ => []

/-- The minutes of incidents, in order. -/
def minutes (f : Floor) : List Incident → Minutes
  | [] => []
  | i :: rest => f.minutesOf i ++ (f.undergo i).minutes rest

variable {f : Floor} {c : Clerk} {i : Nat}

theorem workers_set (f : Floor) (h : Host) (i : Nat) (c : Clerk) :
    (⟨h, f.clerks.set i c⟩ : Floor).workers = f.workers.set i c.worker := List.map_set

theorem workers_get (member : f.clerks[i]? = some c) : f.workers[i]? = some c.worker := by
  rw [workers, List.getElem?_map, member]
  rfl

/-- A clerk's turn is told. -/
theorem tell_turn (f : Floor) (i : Nat) (kept : Nat → Prop) :
    (f.minutesOf (.event (.turns i))).Tell kept f.host.output (f.turn i).host.output f.workers
      (f.turn i).workers := by
  simp only [minutesOf, turn]
  cases member : f.clerks[i]? with
  | none => exact .refl _ _
  | some c =>
    simp only [Option.bind_some]
    cases turned : (c.at f.host).turn? with
    | none =>
      rw [Shift.notice?_of_turn? turned]
      exact .refl _ _
    | some t =>
      have told := Minutes.Tell.work kept (Shift.prints_turn turned)
        (Shift.keeps_turn turned).handle (workers_get member)
      rwa [show t.station.worker = t.clerk.worker from rfl,
        ← workers_set f t.station.host i t.clerk] at told

/-- Every incident is told. -/
theorem tell_incident (f : Floor) (i : Incident) :
    (f.minutesOf i).Tell (fun j => ∀ level, i ≠ .setThreshold j level) f.host.output
      (f.undergo i).host.output f.workers (f.undergo i).workers := by
  have hired (host : Host) (handle : ContextHandle) (threshold : Option LogLevel) :
      (⟨host, f.clerks ++ [.new handle threshold]⟩ : Floor).workers
        = f.workers ++ [(Clerk.new handle threshold).worker] := by
    simp [workers]
  cases i with
  | event e =>
    cases e with
    | spawn d threshold =>
      have silent := (Host.mute_spawn d).output f.host
      simp only [undergo, happen]
      cases spawned : f.host.spawn d with
      | mk h r =>
        rw [spawned] at silent
        cases r with
        | error e => exact .silent silent (.inl rfl)
        | ok handle =>
          refine .silent silent (.inr ?_)
          exact ⟨_, hired h handle threshold, signed_ofHandle handle threshold⟩
    | adopt handle threshold =>
      refine .silent rfl (.inr ?_)
      exact ⟨_, hired f.host handle threshold, signed_ofHandle handle threshold⟩
    | begins i op =>
      simp only [undergo, happen, begin]
      split
      · next c member =>
        split
        · have same : f.workers.set i c.worker = f.workers := Session.set_self (workers_get member)
          exact .silent rfl (.inl ((workers_set f f.host i _).trans same))
        · exact .refl _ _
      · exact .refl _ _
    | turns i => exact tell_turn f i _
    | calls call => exact .direct (Host.output_serve f.host call) (.inl rfl)
  | setThreshold i level =>
    have modified : (f.clerks.modify i fun c =>
        { c with worker := c.worker.withLogThreshold level }).map Clerk.worker
        = (f.clerks.map Clerk.worker).modify i (·.withLogThreshold level) := by
      refine List.ext_getElem? fun j => ?_
      simp only [List.getElem?_map, List.getElem?_modify]
      cases f.clerks[j]? with
      | none => rfl
      | some c => by_cases same : i = j <;> simp [same]
    have told := Minutes.Tell.threshold f.host.output f.workers i level
    rw [workers, ← modified] at told
    exact told.mono fun j keeps same => keeps level (by rw [same])
  | provideFile path contents =>
    simp only [undergo, Host.withFile, minutesOf]
    cases written : f.host.files.write path contents with
    | mk files r =>
      cases r with
      | ok done => exact .silent rfl (.inl rfl)
      | error e => exact .direct rfl (.inl rfl)
  | provideRoute r => exact .silent rfl (.inl rfl)

/-- The minutes of incidents tell all that is printed and logged. -/
theorem tell_minutes (f : Floor) (is : List Incident) :
    (f.minutes is).Tell (fun i => ∀ level, .setThreshold i level ∉ is) f.host.output
      (f.undergoAll is).host.output f.workers (f.undergoAll is).workers := by
  induction is generalizing f with
  | nil => exact .refl _ _
  | cons i rest ih =>
    refine ((tell_incident f i).mono fun j keeps level same => ?_).trans
      ((ih (f.undergo i)).mono fun j keeps level member => ?_)
    · exact keeps level (same ▸ List.mem_cons_self)
    · exact keeps level (List.mem_cons_of_mem i member)

end Floor

/-! ### Sessions -/

namespace Session

variable {s : Session} {w : Nat} {d : Desk} {worker : Worker} {c : Command} {m m' : Minutes}

/-- The worker whom a command is for, and the desk with the operation that it begins. -/
def assignment? (s : Session) : Command → Option (Nat × Desk)
  | .register w task body => some (w, Desk.empty.begin (.act (.register task body)))
  | .setTimeout w delay body => some (w, Desk.empty.begin (.act (.setTimeout delay body)))
  | .console w stream args => some (w, Desk.empty.begin (.act (.console stream args)))
  | .call w c => some (w, Desk.empty.begin (.act (.call c)))
  | .settle w origin => some (w, Desk.empty.begin (.settle origin))
  | .drain w => some (w, Desk.empty.begin .drain)
  | .stepLoop l w => s.loops[l]?.join.map fun loop => (w, (Desk.withLoop loop).begin (.step 0))
  | .runLoop l w => s.loops[l]?.join.map fun loop => (w, (Desk.withLoop loop).begin (.run 0))
  | _ => none

/-- What a command that is for no worker tells the host. -/
def Command.notice? : Command → Option Notice
  | .print line isError => some (.print line isError)
  | _ => none

/-- The minutes of a request: what the worker tells turn by turn until the operation is done,
or what the command tells itself. -/
inductive Tells (s : Session) : Request → Minutes → Prop
  | works {c : Command} {w : Nat} {d : Desk} {worker : Worker} {ns : List Notice} {t : Shift}
      (assigned : s.assignment? c = some (w, d)) (member : s.workers[w]? = some worker)
      (shows : Shift.Shows ⟨⟨s.host, worker, []⟩, d⟩ ns t) (done : t.desk.agenda = []) :
      Tells s (.command c) (.told (some w) ns)
  | absent {c : Command} {w : Nat} {d : Desk} (assigned : s.assignment? c = some (w, d))
      (missing : s.workers[w]? = none) : Tells s (.command c) []
  | direct {c : Command} (unassigned : s.assignment? c = none) :
      Tells s (.command c) (.told none c.notice?.toList)
  | setThreshold (w : Nat) (level : LogLevel) : Tells s (.setThreshold w level) []

/-- The minutes of requests, in order. -/
inductive TellsAll : Session → List Request → Minutes → Prop
  | done (s : Session) : TellsAll s [] []
  | next {s : Session} {r : Request} {rs : List Request} {m n : Minutes} (first : s.Tells r m)
      (rest : TellsAll (s.handle r) rs n) : TellsAll s (r :: rs) (m ++ n)

theorem byWorker_member (member : s.workers[w]? = some worker)
    (act : Station → Station × Reply) {u : Station} (acted : (act ⟨s.host, worker, []⟩).1 = u) :
    (s.byWorker w act).1.host = u.host
      ∧ (s.byWorker w act).1.workers = s.workers.set w u.worker := by
  rw [byWorker, atStation_member member, ← acted]
  exact ⟨rfl, rfl⟩

theorem turns_asked (t : Station) (a : Action) :
    Shift.Turns ⟨t, Desk.empty.begin (.act a)⟩
      ⟨(t.act a).1, Desk.empty.note (.answered (t.act a).2)⟩ :=
  Shift.turns_take rfl (Shift.turns_act t .empty .asked a)

/-- A command that is for a worker does what undisturbed turns of the operation come to. -/
theorem exec_assigned (answered : s.Answered) (assigned : s.assignment? c = some (w, d))
    (member : s.workers[w]? = some worker) :
    ∃ t, Shift.Turns ⟨⟨s.host, worker, []⟩, d⟩ t ∧ t.desk.agenda = []
      ∧ (s.exec c).1.host = t.station.host
      ∧ (s.exec c).1.workers = s.workers.set w t.station.worker := by
  let st : Station := ⟨s.host, worker, []⟩
  have ready : st.Answered := answered w worker member
  cases c with
  | register w task body =>
    obtain ⟨rfl, rfl⟩ := Prod.mk.inj (Option.some.inj assigned)
    rw [exec_register]
    exact ⟨_, turns_asked st (.register task body), rfl, byWorker_member member _ rfl⟩
  | setTimeout w delay body =>
    obtain ⟨rfl, rfl⟩ := Prod.mk.inj (Option.some.inj assigned)
    exact ⟨_, turns_asked st (.setTimeout delay body), rfl, byWorker_member member _ rfl⟩
  | console w stream args =>
    obtain ⟨rfl, rfl⟩ := Prod.mk.inj (Option.some.inj assigned)
    exact ⟨_, turns_asked st (.console stream args), rfl, byWorker_member member _ rfl⟩
  | call w c =>
    obtain ⟨rfl, rfl⟩ := Prod.mk.inj (Option.some.inj assigned)
    rw [exec_call]
    exact ⟨_, turns_asked st (.call c), rfl, byWorker_member member _ rfl⟩
  | settle w origin =>
    obtain ⟨rfl, rfl⟩ := Prod.mk.inj (Option.some.inj assigned)
    exact ⟨_, Shift.turns_settle origin ready .empty, rfl, byWorker_member member _ rfl⟩
  | drain w =>
    obtain ⟨rfl, rfl⟩ := Prod.mk.inj (Option.some.inj assigned)
    obtain ⟨n, k, turns, -⟩ := Shift.turns_run ready (d := .withLoop .start) rfl
    refine ⟨_, turns, ?_, byWorker_member member _ rfl⟩
    split <;> rfl
  | stepLoop l w =>
    obtain ⟨loop, present, assigned⟩ := Option.map_eq_some_iff.mp assigned
    obtain ⟨rfl, rfl⟩ := Prod.mk.inj assigned
    have place : s.loops[l]? = some (some loop) := Option.join_eq_some_iff.mp present
    cases stepped : loop.step st with
    | mk k rest =>
      obtain ⟨u, r⟩ := rest
      obtain ⟨n, turns⟩ := Shift.turns_step ready (d := .withLoop loop) rfl stepped
      refine ⟨_, turns, by cases r <;> rfl, ?_⟩
      simp only [exec, place, atStation_member member]
      rw [stepped]
      exact ⟨rfl, rfl⟩
  | runLoop l w =>
    obtain ⟨loop, present, assigned⟩ := Option.map_eq_some_iff.mp assigned
    obtain ⟨rfl, rfl⟩ := Prod.mk.inj assigned
    have place : s.loops[l]? = some (some loop) := Option.join_eq_some_iff.mp present
    obtain ⟨n, k, turns, -⟩ := Shift.turns_run ready (d := .withLoop loop) rfl
    refine ⟨_, turns, by split <;> rfl, ?_⟩
    simp only [exec, place, atStation_member member]
    exact ⟨rfl, rfl⟩
  | _ => cases assigned

theorem worker?_of_assigned (assigned : s.assignment? c = some (w, d)) : c.worker? = some w := by
  cases c with
  | register | setTimeout | console | call | settle | drain =>
    exact congrArg some (Prod.mk.inj (Option.some.inj assigned)).1
  | stepLoop l v | runLoop l v =>
    obtain ⟨loop, -, assigned⟩ := Option.map_eq_some_iff.mp assigned
    exact congrArg some (Prod.mk.inj assigned).1
  | _ => cases assigned

/-- What a command that is for no worker does to lines and workers. -/
theorem exec_unassigned (unassigned : s.assignment? c = none) :
    (s.exec c).1.host.output = s.host.output ++ c.notice?.toList.flatMap Notice.lines
      ∧ ((s.exec c).1.workers = s.workers
        ∨ ∃ w, (s.exec c).1.workers = s.workers ++ [w] ∧ w.logger.source = w.handle.worker) := by
  have silent {o : List PrintedLine} (same : o = s.host.output) :
      o = s.host.output ++ (none : Option Notice).toList.flatMap Notice.lines := by
    rw [same]
    exact (List.append_nil _).symm
  have looked (w : Nat) (reply : Station → Reply) :
      (s.byWorker w fun st => (st, reply st)).1.host = s.host
        ∧ (s.byWorker w fun st => (st, reply st)).1.workers = s.workers := by
    cases member : s.workers[w]? with
    | none =>
      rw [byWorker, atStation_absent member]
      exact ⟨rfl, rfl⟩
    | some worker =>
      obtain ⟨host, workers⟩ := byWorker_member member (fun st => (st, reply st)) rfl
      exact ⟨host, workers.trans (set_self member)⟩
  have hired (t : Session) (handle : ContextHandle) (threshold : Option LogLevel) :
      ∃ w, (t.addWorker handle threshold).1.workers = t.workers ++ [w]
        ∧ w.logger.source = w.handle.worker := by
    cases threshold <;> exact ⟨_, rfl, rfl⟩
  cases c with
  | spawn d threshold =>
    have asked := (Host.mute_spawn d).output s.host
    simp only [exec]
    cases spawned : s.host.spawn d with
    | mk h r =>
      rw [spawned] at asked
      cases r with
      | ok handle => exact ⟨silent asked, .inr (hired { s with host := h } handle threshold)⟩
      | error e => exact ⟨silent asked, .inl rfl⟩
  | adopt handle threshold => exact ⟨silent rfl, .inr (hired s handle threshold)⟩
  | entries w =>
    obtain ⟨host, workers⟩ := looked w fun st => .entries st.worker.logger.entries
    exact ⟨silent (congrArg Host.output host), .inl workers⟩
  | registry w task =>
    obtain ⟨host, workers⟩ := looked w fun st => .registry (viewRegistry st.worker.registry task)
    exact ⟨silent (congrArg Host.output host), .inl workers⟩
  | queue w =>
    obtain ⟨host, workers⟩ := looked w fun st => .queue (viewQueue st.host st.worker.handle.context)
    exact ⟨silent (congrArg Host.output host), .inl workers⟩
  | stepLoop l w | runLoop l w =>
    have gone := Option.map_eq_none_iff.mp unassigned
    simp only [exec]
    split
    · exact ⟨silent rfl, .inl rfl⟩
    · exact ⟨silent rfl, .inl rfl⟩
    · next loop place => rw [place] at gone; cases gone
  | showLoop l =>
    simp only [exec]
    split <;> exact ⟨silent rfl, .inl rfl⟩
  | drive => exact ⟨silent (Host.mute_drive.output s.host), .inl rfl⟩
  | print line isError => exact ⟨rfl, .inl rfl⟩
  | start op =>
    cases op with
    | timer delay => exact ⟨silent ((Host.mute_setTimeout delay).output s.host), .inl rfl⟩
    | read | write | fetch => exact ⟨silent rfl, .inl rfl⟩
  | slot i =>
    simp only [exec]
    split <;> exact ⟨silent rfl, .inl rfl⟩
  | take i =>
    simp only [exec]
    split <;> exact ⟨silent rfl, .inl rfl⟩
  | newLoop | advance | timers | contexts | file | lines => exact ⟨silent rfl, .inl rfl⟩
  | _ => cases unassigned

theorem handle_turns {a b : Shift} (turns : a.Turns b) :
    b.station.worker.handle = a.station.worker.handle := by
  induction turns with
  | refl => rfl
  | tail _ turned ih => exact (Shift.keeps_turn turned).handle.trans ih

/-- Every request has minutes, and one only. -/
theorem exists_tells (answered : s.Answered) (r : Request) :
    ∃ m, s.Tells r m ∧ ∀ m', s.Tells r m' → m' = m := by
  cases r with
  | setThreshold w level =>
    refine ⟨[], .setThreshold w level, fun m' tells => ?_⟩
    cases tells
    rfl
  | command c =>
    cases assigned : s.assignment? c with
    | none =>
      refine ⟨_, .direct assigned, fun m' tells => ?_⟩
      cases tells with
      | works other => cases assigned.symm.trans other
      | absent other => cases assigned.symm.trans other
      | direct => rfl
    | some a =>
      obtain ⟨w, d⟩ := a
      cases member : s.workers[w]? with
      | none =>
        refine ⟨[], .absent assigned member, fun m' tells => ?_⟩
        cases tells with
        | works other present =>
          obtain ⟨rfl, rfl⟩ := Prod.mk.inj (Option.some.inj (assigned.symm.trans other))
          cases member.symm.trans present
        | absent => rfl
        | direct other => cases assigned.symm.trans other
      | some worker =>
        obtain ⟨t, turns, done, -⟩ := exec_assigned answered assigned member
        obtain ⟨ns, shows⟩ := Shift.exists_shows turns
        refine ⟨_, .works assigned member shows done, fun m' tells => ?_⟩
        cases tells with
        | works other present shows' done' =>
          obtain ⟨rfl, rfl⟩ := Prod.mk.inj (Option.some.inj (assigned.symm.trans other))
          obtain rfl := Option.some.inj (member.symm.trans present)
          obtain ⟨rfl, -⟩ := Shift.shows_unique shows shows' (Shift.turn?_free _ done)
            (Shift.turn?_free _ done')
          rfl
        | absent other missing =>
          obtain ⟨rfl, rfl⟩ := Prod.mk.inj (Option.some.inj (assigned.symm.trans other))
          cases member.symm.trans missing
        | direct other => cases assigned.symm.trans other

/-- The minutes of a request tell all that is printed and logged. -/
theorem tell_request (answered : s.Answered) {r : Request} (tells : s.Tells r m) :
    m.Tell (fun i => ∀ level, r ≠ .setThreshold i level) s.host.output (s.handle r).host.output
      s.workers (s.handle r).workers := by
  cases tells with
  | @works c w d worker ns t assigned member shows done =>
    obtain ⟨u, turns, done', host, workers⟩ := exec_assigned answered assigned member
    obtain ⟨ms, shows'⟩ := Shift.exists_shows turns
    obtain ⟨rfl, rfl⟩ := Shift.shows_unique shows shows' (Shift.turn?_free _ done)
      (Shift.turn?_free _ done')
    have told := Minutes.Tell.work (fun i => ∀ level, Request.command c ≠ .setThreshold i level)
      shows.prints (handle_turns turns) member
    rwa [← host, ← workers] at told
  | @absent c w d assigned missing =>
    rw [handle, exec_absent s (worker?_of_assigned assigned) missing]
    exact .refl _ _
  | @direct c unassigned =>
    obtain ⟨output, workers⟩ := exec_unassigned unassigned
    exact .direct output workers
  | setThreshold w level =>
    refine (Minutes.Tell.threshold s.host.output s.workers w level).mono fun i keeps same => ?_
    exact keeps level (by rw [same])

theorem answered_handle (answered : s.Answered) (r : Request) : (s.handle r).Answered := by
  cases r with
  | command c => exact answered_exec answered c
  | setThreshold w level =>
    intro i v member
    rw [handle, List.getElem?_modify] at member
    obtain ⟨v', old, rfl⟩ := Option.map_eq_some_iff.mp member
    split <;> exact answered i v' old

/-- Requests have minutes, and one only, which tell all that is printed and logged. -/
theorem exists_tellsAll (answered : s.Answered) (rs : List Request) :
    ∃ m, s.TellsAll rs m ∧ (∀ m', s.TellsAll rs m' → m' = m)
      ∧ m.Tell (fun i => ∀ level, .setThreshold i level ∉ rs) s.host.output
        (s.handleAll rs).host.output s.workers (s.handleAll rs).workers := by
  induction rs generalizing s with
  | nil =>
    refine ⟨[], .done s, fun m' tells => ?_, .refl _ _⟩
    cases tells
    rfl
  | cons r rest ih =>
    obtain ⟨m, tells, only⟩ := exists_tells answered r
    obtain ⟨n, tellsAll, onlyAll, told⟩ := ih (answered_handle answered r)
    refine ⟨m ++ n, .next tells tellsAll, fun m' other => ?_, ?_⟩
    · cases other with
      | next first later => rw [only _ first, onlyAll _ later]
    · refine ((tell_request answered tells).mono fun j keeps level same => ?_).trans
        (told.mono fun j keeps level member => ?_)
      · exact keeps level (same ▸ List.mem_cons_self)
      · exact keeps level (List.mem_cons_of_mem r member)

end Session

/-! ### The record -/

/-- **What a host has printed is the record of what it was told.** Whatever happens on a floor,
in any order of the workers' turns, the lines of the host go on by those of the minutes: one
for each console call, each signal and each direct print, and one for each entry that a worker
logs at or above the threshold of that moment; no other line is printed, and none is taken
away, moved or repeated. The log of a worker records the entries that the minutes have of it,
as long as it is given no other threshold, and every entry bears the name of its worker. So it
is in a session, where the minutes of a command are what the worker tells turn by turn. -/
theorem output_is_minutes :
    (∀ (f : Floor) (is : List Floor.Incident),
      (f.minutes is).Tell (fun i => ∀ level, .setThreshold i level ∉ is)
        f.host.output (f.undergoAll is).host.output f.workers (f.undergoAll is).workers)
    ∧ (∀ (h : Host) (is : List Floor.Incident), Signed (Floor.undergoAll ⟨h, []⟩ is).workers)
    ∧ (∀ (h : Host) (before rs : List Session.Request),
      ∃ m, ((Session.ofHost h).handleAll before).TellsAll rs m
        ∧ (∀ m', ((Session.ofHost h).handleAll before).TellsAll rs m' → m' = m)
        ∧ m.Tell (fun i => ∀ level, .setThreshold i level ∉ rs)
          ((Session.ofHost h).handleAll before).host.output
          (((Session.ofHost h).handleAll before).handleAll rs).host.output
          ((Session.ofHost h).handleAll before).workers
          (((Session.ofHost h).handleAll before).handleAll rs).workers)
    ∧ ∀ (h : Host) (rs : List Session.Request),
      Signed ((Session.ofHost h).handleAll rs).workers := by
  have nobody : Signed [] := fun w member => nomatch member
  have new (h : Host) : (Session.ofHost h).Answered := fun i w member => nomatch member
  have answered (h : Host) (rs : List Session.Request) :
      ((Session.ofHost h).handleAll rs).Answered := by
    induction rs using List.reverseRecOn with
    | nil => exact new h
    | append_singleton rs r ih =>
      rw [Session.handleAll, List.foldl_concat]
      exact Session.answered_handle ih r
  refine ⟨Floor.tell_minutes, fun h is => ?_, fun h before rs => ?_, fun h rs => ?_⟩
  · exact ((Floor.tell_minutes ⟨h, []⟩ is).signed nobody).1
  · exact Session.exists_tellsAll (answered h before) rs
  · obtain ⟨m, -, -, told⟩ := Session.exists_tellsAll (new h) rs
    exact (told.signed nobody).1

/-- Two workers, one of them of a context that the host does not know. Their turns alternate;
the threshold is raised between two entries, the task fails, and others print. -/
def twoPrinters : List Floor.Incident :=
  [.event (.spawn ⟨"first", some ⟨⟨7⟩⟩⟩ (some .info)),
      .event (.adopt ⟨.foreign ⟨7⟩, none, "second"⟩ none),
      .event (.begins 0 (.act (.register ⟨"task"⟩
        [.log ⟨.info, none, "seen", []⟩, .log ⟨.info, none, "unseen", []⟩, .fail "no"]))),
      .event (.turns 0), .event (.begins 1 (.act (.call .signal))), .event (.begins 0 .drain)]
    ++ List.replicate 5 (.event (.turns 0)) ++ [.setThreshold 0 .warn, .event (.turns 1)]
    ++ List.replicate 10 (.event (.turns 0))
    ++ [.event (.calls (.request (.print "direct\n" false))),
      .event (.begins 1 (.act (.console .err [.null]))), .event (.turns 1), .provideFile ".." []]

/-- A worker whose timer is going to fail. -/
def lateTimer : List Session.Request :=
  [.command (.spawn ⟨"worker", none⟩ none), .command (.setTimeout 0 (.ofNanos 5) [.fail "late"])]

/-- Every line is there, in its place, and so it is when a timer fails in a session. -/
theorem output_is_minutes_twoPrinters :
    let f : Floor := ⟨.empty, []⟩
    (f.minutes twoPrinters).Tell (fun i => ∀ level, .setThreshold i level ∉ twoPrinters)
        [] (f.undergoAll twoPrinters).host.output [] (f.undergoAll twoPrinters).workers
      ∧ (f.undergoAll twoPrinters).host.output
        = [⟨"[info] worker 0000000 seen\n", false⟩, ⟨"woof\n", false⟩,
          ⟨"[error] worker 0000000 task failed task=task error=no\n", true⟩,
          ⟨"direct\n", false⟩, ⟨"[err]: null\n", true⟩,
          ⟨"[host] could not preload ..: I/O error on ..: path escapes the host root\n", true⟩]
      ∧ ∃ m, ((Session.ofHost .empty).handleAll lateTimer).TellsAll [.command (.settle 0 none)] m
        ∧ m.lines = [⟨"[error] timer callback failed timer=timer:0 error=late\n", true⟩] := by
  obtain ⟨m, tells, -, told⟩ := output_is_minutes.2.2.1 .empty lateTimer [.command (.settle 0 none)]
  have before : ((Session.ofHost .empty).handleAll lateTimer).host.output = [] := by
    decide +kernel
  have after : (((Session.ofHost .empty).handleAll lateTimer).handleAll
      [.command (.settle 0 none)]).host.output
      = [⟨"[error] timer callback failed timer=timer:0 error=late\n", true⟩] := by
    decide +kernel
  refine ⟨output_is_minutes.1 ⟨.empty, []⟩ twoPrinters, by decide +kernel, m, tells, ?_⟩
  rw [← after, told.output, before, List.nil_append]

end TaskHost
