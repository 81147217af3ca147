import Mathlib.Algebra.Order.BigOperators.Group.List
import Mathlib.Algebra.Order.Ring.Nat
import Mathlib.Data.List.Basic

/-! The task of a server: it accepts connections, hands each to a task of its own and, once it is told to stop, drains
them. Both servers of the process are run in this way. A task that failed is told by the text of its join error, and
times are milliseconds. -/

namespace MistralrsProxy

/-- How long the servers wait for their connections. -/
def serverShutdownGrace : Nat := 30000

/-- The task of a connection, until the server has joined it. -/
inductive Connection where
  | serving
  /-- The connection was asked for a graceful shutdown. -/
  | closing
  /-- The task ends when it is polled the next time. -/
  | aborted
  | ended (result : Except String Unit)
  | joined (result : Except String Unit)
  deriving DecidableEq

namespace Connection

def isJoined : Connection → Bool
  | .joined _ => true
  | _ => false

/-- The task still runs for its client. -/
def isOpen : Connection → Bool
  | .serving | .closing => true
  | _ => false

/-- What `abort_all` does to a task. -/
def abort : Connection → Connection
  | .serving | .closing => .aborted
  | connection => connection

/-- How many steps the task and its joining take at most. -/
def remaining : Connection → Nat
  | .serving => 4
  | .closing => 3
  | .aborted => 2
  | .ended _ => 1
  | .joined _ => 0

theorem abort_remaining_le (connection : Connection) : connection.abort.remaining ≤ connection.remaining := by
  cases connection <;> simp [abort, remaining]

theorem isOpen_abort (connection : Connection) : connection.abort.isOpen = false := by
  cases connection <;> rfl

end Connection

/-- Where the task of a server is. An end with an outer error is a panic. -/
inductive ServerPhase where
  | accepting
  | draining (deadline : Nat)
  | aborting (result : Except String Unit)
  | ended (result : Except String (Except String Unit))
  deriving DecidableEq

namespace ServerPhase

/-- How many phases are left. -/
def remaining : ServerPhase → Nat
  | .accepting => 3
  | .draining _ => 2
  | .aborting _ => 1
  | .ended _ => 0

end ServerPhase

/-- A server and its connections in the order they were accepted. -/
structure Server where
  phase : ServerPhase
  connections : List Connection
  deriving DecidableEq

inductive ServerOp where
  | accept
  | acceptFails (error : String)
  | joinNext (position : Nat)
  | stopAccepting
  /-- No task is left to be joined. -/
  | finish
  | graceElapses
  | panic (error : String)
  /-- The task of a connection learns of the shutdown. -/
  | close (position : Nat)
  /-- The task of a connection ends by itself: the client is done or gone, or the task panics. -/
  | connectionEnds (position : Nat) (result : Except String Unit)
  | cancel (position : Nat)
  deriving DecidableEq

namespace Server

def empty : Server := ⟨.accepting, []⟩

/-- No task is left in the set. -/
def drained (server : Server) : Bool := server.connections.all Connection.isJoined

def setConnection (position : Nat) (connection : Connection) (server : Server) : Server :=
  { server with connections := server.connections.set position connection }

/-- `abort_connections` up to its loop, and what is answered behind it. -/
def abortConnections (phase : ServerPhase) (server : Server) : Server :=
  ⟨phase, server.connections.map Connection.abort⟩

/-- The text of the error that a failed connection ends a server with. -/
def connectionFailed (name error : String) : ServerPhase → String
  | .draining _ => name ++ " connection task failed during shutdown: " ++ error
  | _ => name ++ " connection task failed: " ++ error

/-- `serve_public` and `serve_control`, the tasks of their connections among them. -/
def step (name : String) (shutdown : Bool) (now : Nat) (server : Server) : ServerOp → Option Server
  | .accept =>
      if server.phase = .accepting then some { server with connections := server.connections ++ [.serving] } else none
  | .acceptFails error =>
      if server.phase = .accepting then some (server.abortConnections (.aborting (.error error))) else none
  | .joinNext position =>
      match server.connections[position]? with
      | some (.ended result) =>
          let joined := server.setConnection position (.joined result)
          match server.phase, result with
          | .ended _, _ => none
          | .aborting _, _ => some joined
          | _, .ok () => some joined
          | phase, .error error =>
            some (joined.abortConnections (.aborting (.error (connectionFailed name error phase))))
      | _ => none
  | .stopAccepting =>
      if server.phase = .accepting ∧ shutdown = true then
        some { server with phase := .draining (now + serverShutdownGrace) }
      else none
  | .finish =>
      match server.phase with
      | .draining _ => if server.drained then some { server with phase := .ended (.ok (.ok ())) } else none
      | .aborting result => if server.drained then some { server with phase := .ended (.ok result) } else none
      | _ => none
  | .graceElapses =>
      match server.phase with
      | .draining deadline => if deadline ≤ now then some (server.abortConnections (.aborting (.ok ()))) else none
      | _ => none
  | .panic error =>
      match server.phase with
      | .ended _ => none
      | _ => some (server.abortConnections (.ended (.error error)))
  | .close position =>
      if server.connections[position]? = some .serving ∧ shutdown = true then
        some (server.setConnection position .closing)
      else none
  | .connectionEnds position result =>
      match server.connections[position]? with
      | some .serving | some .closing | some .aborted => some (server.setConnection position (.ended result))
      | _ => none
  | .cancel position =>
      if server.connections[position]? = some .aborted then
        some (server.setConnection position (.ended (.error "task was cancelled")))
      else none

/-- How many steps the server and its connections take at most until the task has ended and all are joined, apart from
accepting more. -/
def remaining (server : Server) : Nat :=
  server.phase.remaining + (server.connections.map Connection.remaining).sum

end Server

/-- One step of the task of a connection, or its joining. -/
inductive Connection.Moves (shutdown : Bool) : Connection → Connection → Prop
  | closed (h : shutdown = true) : Moves shutdown .serving .closing
  | served (result : Except String Unit) : Moves shutdown .serving (.ended result)
  | finished (result : Except String Unit) : Moves shutdown .closing (.ended result)
  | stopped (result : Except String Unit) : Moves shutdown .aborted (.ended result)
  | joined (result : Except String Unit) : Moves shutdown (.ended result) (.joined result)

namespace Server

/-- Why a server aborts its connections, and the phase that this leads to. -/
inductive Aborts (now : Nat) : ServerPhase → ServerPhase → Prop
  | failed (phase : ServerPhase) (error : String)
      (hphase : phase = .accepting ∨ ∃ deadline, phase = .draining deadline) :
      Aborts now phase (.aborting (.error error))
  | elapsed (deadline : Nat) (h : deadline ≤ now) : Aborts now (.draining deadline) (.aborting (.ok ()))
  | panicked (phase : ServerPhase) (error : String) (hphase : ∀ result, phase ≠ .ended result) :
      Aborts now phase (.ended (.error error))

/-- How a server ends in good order. -/
inductive Finishes : ServerPhase → Except String Unit → Prop
  | drained (deadline : Nat) : Finishes (.draining deadline) (.ok ())
  | aborted (result : Except String Unit) : Finishes (.aborting result) result

/-- What a step of a server can do. -/
inductive Steps (shutdown : Bool) (now : Nat) (server : Server) : ServerOp → Server → Prop
  | accepted (hphase : server.phase = .accepting) :
      Steps shutdown now server .accept { server with connections := server.connections ++ [.serving] }
  | moved (op : ServerOp) (position : Nat) (before after : Connection) (hop : op ≠ .accept)
      (hbefore : server.connections[position]? = some before) (hmoves : before.Moves shutdown after) :
      Steps shutdown now server op (server.setConnection position after)
  | aborts (op : ServerOp) (phase : ServerPhase) (hop : op ≠ .accept) (haborts : Aborts now server.phase phase) :
      Steps shutdown now server op (server.abortConnections phase)
  | joinedFailure (position : Nat) (error text : String)
      (hbefore : server.connections[position]? = some (.ended (.error error)))
      (haborts : Aborts now server.phase (.aborting (.error text))) :
      Steps shutdown now server (.joinNext position)
        ((server.setConnection position (.joined (.error error))).abortConnections (.aborting (.error text)))
  | drains (hphase : server.phase = .accepting) (hshutdown : shutdown = true) :
      Steps shutdown now server .stopAccepting { server with phase := .draining (now + serverShutdownGrace) }
  | finishes (result : Except String Unit) (hphase : Finishes server.phase result) (hdrained : server.drained = true) :
      Steps shutdown now server .finish { server with phase := .ended (.ok result) }

variable {name : String} {shutdown : Bool} {now : Nat} {server next : Server} {op : ServerOp}

theorem step_steps (h : server.step name shutdown now op = some next) : Steps shutdown now server op next := by
  cases op with
  | accept =>
      obtain ⟨hphase, hnext⟩ := Option.ite_none_right_eq_some.mp h
      cases hnext
      exact .accepted hphase
  | acceptFails error =>
      obtain ⟨hphase, hnext⟩ := Option.ite_none_right_eq_some.mp h
      cases hnext
      exact .aborts _ _ (by simp) (.failed _ error (.inl hphase))
  | joinNext position =>
      simp only [step] at h
      split at h
      · rename_i result hbefore
        split at h
        · cases h
        · cases h
          exact .moved _ position _ _ (by simp) hbefore (.joined _)
        · cases h
          exact .moved _ position _ _ (by simp) hbefore (.joined (.ok ()))
        · rename_i error hended haborting
          cases h
          refine .joinedFailure position error _ hbefore (.failed _ _ ?_)
          cases hphase : server.phase with
          | accepting => exact .inl rfl
          | draining deadline => exact .inr ⟨deadline, rfl⟩
          | aborting result => exact absurd hphase (haborting result)
          | ended result => exact absurd hphase (hended result)
      · cases h
  | stopAccepting =>
      obtain ⟨⟨hphase, hshutdown⟩, hnext⟩ := Option.ite_none_right_eq_some.mp h
      cases hnext
      exact .drains hphase hshutdown
  | finish =>
      simp only [step] at h
      split at h
      · rename_i deadline hphase
        obtain ⟨hdrained, hnext⟩ := Option.ite_none_right_eq_some.mp h
        cases hnext
        exact .finishes _ (hphase ▸ .drained deadline) hdrained
      · rename_i result hphase
        obtain ⟨hdrained, hnext⟩ := Option.ite_none_right_eq_some.mp h
        cases hnext
        exact .finishes _ (hphase ▸ .aborted result) hdrained
      · cases h
  | graceElapses =>
      simp only [step] at h
      split at h
      · rename_i deadline hphase
        obtain ⟨hdeadline, hnext⟩ := Option.ite_none_right_eq_some.mp h
        cases hnext
        exact .aborts _ _ (by simp) (hphase ▸ .elapsed deadline hdeadline)
      · cases h
  | panic error =>
      simp only [step] at h
      split at h
      · cases h
      · rename_i hphase
        cases h
        exact .aborts _ _ (by simp) (.panicked _ error hphase)
  | close position =>
      obtain ⟨⟨hbefore, hshutdown⟩, hnext⟩ := Option.ite_none_right_eq_some.mp h
      cases hnext
      exact .moved _ position _ _ (by simp) hbefore (.closed hshutdown)
  | connectionEnds position result =>
      simp only [step] at h
      split at h
      · rename_i hbefore
        cases h
        exact .moved _ position _ _ (by simp) hbefore (.served result)
      · rename_i hbefore
        cases h
        exact .moved _ position _ _ (by simp) hbefore (.finished result)
      · rename_i hbefore
        cases h
        exact .moved _ position _ _ (by simp) hbefore (.stopped result)
      · cases h
  | cancel position =>
      obtain ⟨hbefore, hnext⟩ := Option.ite_none_right_eq_some.mp h
      cases hnext
      exact .moved _ position _ _ (by simp) hbefore (.stopped _)

end Server

namespace Connection

theorem Moves.remaining_lt {shutdown : Bool} {before after : Connection} (h : before.Moves shutdown after) :
    after.remaining < before.remaining := by
  cases h with
  | closed | served | finished | stopped | joined => simp [remaining]

theorem Moves.isOpen {shutdown : Bool} {before after : Connection} (h : before.Moves shutdown after)
    (hafter : after.isOpen = true) : before.isOpen = true := by
  cases h with
  | closed => rfl
  | served | finished | stopped | joined => cases hafter

end Connection

theorem sum_remaining_set {connections : List Connection} {position : Nat} {before : Connection}
    (hbefore : connections[position]? = some before) (after : Connection) :
    ((connections.set position after).map Connection.remaining).sum + before.remaining =
      (connections.map Connection.remaining).sum + after.remaining := by
  induction connections generalizing position with
  | nil => cases hbefore
  | cons connection rest ih =>
      cases position with
      | zero =>
          cases hbefore
          simp only [List.set_cons_zero, List.map_cons, List.sum_cons]
          omega
      | succ position =>
          have hrest := ih hbefore
          simp only [List.set_cons_succ, List.map_cons, List.sum_cons]
          omega

theorem sum_remaining_abort_le (connections : List Connection) :
    ((connections.map Connection.abort).map Connection.remaining).sum ≤ (connections.map Connection.remaining).sum := by
  induction connections with
  | nil => simp
  | cons connection rest ih =>
      have hhead := connection.abort_remaining_le
      simp only [List.map_cons, List.sum_cons]
      omega

namespace Server

variable {shutdown : Bool} {now : Nat} {server next : Server} {op : ServerOp}

theorem Aborts.remaining_lt {before after : ServerPhase} (h : Aborts now before after) :
    after.remaining < before.remaining := by
  cases h with
  | failed _ error hphase =>
      rcases hphase with rfl | ⟨deadline, rfl⟩
      · simp [ServerPhase.remaining]
      · simp [ServerPhase.remaining]
  | elapsed deadline => simp [ServerPhase.remaining]
  | panicked _ error hphase =>
      cases before with
      | ended result => exact absurd rfl (hphase result)
      | accepting | draining | aborting => simp [ServerPhase.remaining]

/-- Every step but that of accepting leaves less to be done. -/
theorem Steps.remaining_lt (h : Steps shutdown now server op next) (hop : op ≠ .accept) :
    next.remaining < server.remaining := by
  cases h with
  | accepted => exact absurd rfl hop
  | moved _ position before after _ hbefore hmoves =>
      have hsum := sum_remaining_set hbefore after
      have hlt := hmoves.remaining_lt
      simp only [remaining, setConnection]
      omega
  | aborts _ phase _ haborts =>
      have hlt := haborts.remaining_lt
      have hle := sum_remaining_abort_le server.connections
      simp only [remaining, abortConnections]
      omega
  | joinedFailure position error text hbefore haborts =>
      have hlt := haborts.remaining_lt
      have hsum := sum_remaining_set hbefore (.joined (.error error))
      have hle := sum_remaining_abort_le (server.connections.set position (.joined (.error error)))
      simp only [Connection.remaining] at hsum
      simp only [remaining, abortConnections, setConnection]
      omega
  | drains hphase =>
      simp only [remaining, hphase, ServerPhase.remaining]
      omega
  | finishes result hphase =>
      have hlt : 0 < server.phase.remaining := by
        cases hfinishes : server.phase with
        | draining | aborting => simp [ServerPhase.remaining]
        | accepting | ended =>
            rw [hfinishes] at hphase
            cases hphase
      simp only [remaining]
      change 0 + _ < _
      omega

/-- What holds of a server at every moment, for the shutdown signal that it reads. -/
structure Sound (shutdown : Bool) (server : Server) : Prop where
  draining : ∀ deadline, server.phase = .draining deadline → shutdown = true
  aborting : ∀ result, server.phase = .aborting result →
    (∀ connection ∈ server.connections, connection.isOpen = false) ∧ (result = .ok () → shutdown = true)
  ended : ∀ result, server.phase = .ended result →
    (∀ connection ∈ server.connections, connection.isOpen = false) ∧
      ∀ answer, result = .ok answer → server.drained = true ∧ (answer = .ok () → shutdown = true)
  closing : .closing ∈ server.connections → shutdown = true

theorem sound_empty (shutdown : Bool) : empty.Sound shutdown :=
  ⟨by simp [empty], by simp [empty], by simp [empty], by simp [empty]⟩

/-- The signal is not taken back. -/
theorem Sound.shutDown (h : server.Sound shutdown) : server.Sound true :=
  ⟨fun _ _ => rfl, fun result hphase => ⟨(h.aborting result hphase).1, fun _ => rfl⟩,
    fun result hphase => ⟨(h.ended result hphase).1, fun answer heq =>
      ⟨((h.ended result hphase).2 answer heq).1, fun _ => rfl⟩⟩, fun _ => rfl⟩

theorem abortConnections_closed (phase : ServerPhase) (server : Server) :
    ∀ connection ∈ (server.abortConnections phase).connections, connection.isOpen = false := by
  intro connection hmem
  obtain ⟨before, _, rfl⟩ := List.mem_map.mp hmem
  exact before.isOpen_abort

theorem sound_abort {phase : ServerPhase} (h : server.Sound shutdown) (haborts : Aborts now server.phase phase)
    (connections : Server) : (connections.abortConnections phase).Sound shutdown := by
  have hclosed := abortConnections_closed phase connections
  have hnotClosing : Connection.closing ∈ (connections.abortConnections phase).connections → shutdown = true := by
    intro hmem
    cases hclosed _ hmem
  refine ⟨?_, ?_, ?_, hnotClosing⟩
  · intro deadline hphase
    change phase = _ at hphase
    rw [hphase] at haborts
    generalize server.phase = before at haborts
    cases haborts
  · intro result hphase
    refine ⟨hclosed, ?_⟩
    rintro rfl
    change phase = _ at hphase
    rw [hphase] at haborts
    generalize hbefore : server.phase = before at haborts
    cases haborts with
    | elapsed deadline => exact h.draining deadline hbefore
  · intro result hphase
    refine ⟨hclosed, ?_⟩
    rintro answer rfl
    change phase = _ at hphase
    rw [hphase] at haborts
    generalize server.phase = before at haborts
    cases haborts

theorem drained_setConnection {position : Nat} {before after : Connection} (hdrained : server.drained = true)
    (hbefore : server.connections[position]? = some before) (hmoves : before.Moves shutdown after) : False := by
  have hjoined := List.all_eq_true.mp hdrained before (List.mem_of_getElem? hbefore)
  cases hmoves with
  | closed | served | finished | stopped | joined => cases hjoined

theorem sound_moved {position : Nat} {before after : Connection} (h : server.Sound shutdown)
    (hbefore : server.connections[position]? = some before) (hmoves : before.Moves shutdown after) :
    (server.setConnection position after).Sound shutdown := by
  have hclosed : (∀ connection ∈ server.connections, connection.isOpen = false) →
      ∀ connection ∈ (server.setConnection position after).connections, connection.isOpen = false := by
    intro hall connection hmem
    rcases List.mem_or_eq_of_mem_set hmem with hmem | rfl
    · exact hall connection hmem
    · have hbeforeClosed := hall before (List.mem_of_getElem? hbefore)
      by_contra hopen
      rw [Bool.not_eq_false] at hopen
      rw [hmoves.isOpen hopen] at hbeforeClosed
      cases hbeforeClosed
  refine ⟨h.draining, ?_, ?_, ?_⟩
  · intro result hphase
    exact ⟨hclosed (h.aborting result hphase).1, (h.aborting result hphase).2⟩
  · intro result hphase
    refine ⟨hclosed (h.ended result hphase).1, ?_⟩
    intro answer heq
    exact absurd (((h.ended result hphase).2 answer heq).1)
      (fun hdrained => drained_setConnection hdrained hbefore hmoves)
  · intro hmem
    rcases List.mem_or_eq_of_mem_set hmem with hmem | rfl
    · exact h.closing hmem
    · cases hmoves with
      | closed hshutdown => exact hshutdown

theorem sound_step (h : server.Sound shutdown) (hstep : Steps shutdown now server op next) : next.Sound shutdown := by
  cases hstep with
  | accepted hphase =>
      refine ⟨?_, ?_, ?_, ?_⟩
      · simp [hphase]
      · simp [hphase]
      · simp [hphase]
      · intro hmem
        rcases List.mem_append.mp hmem with hmem | hmem
        · exact h.closing hmem
        · cases List.mem_singleton.mp hmem
  | moved _ position before after _ hbefore hmoves => exact sound_moved h hbefore hmoves
  | aborts _ phase _ haborts => exact sound_abort h haborts server
  | joinedFailure position error text hbefore haborts => exact sound_abort h haborts _
  | drains hphase hshutdown =>
      refine ⟨fun _ _ => hshutdown, ?_, ?_, h.closing⟩
      · simp
      · simp
  | finishes result hphase hdrained =>
      have hjoined : ∀ connection ∈ server.connections, connection.isOpen = false := by
        intro connection hmem
        have hall := List.all_eq_true.mp hdrained connection hmem
        cases connection with
        | joined => rfl
        | serving | closing | aborted | ended => cases hall
      refine ⟨?_, ?_, ?_, h.closing⟩
      · simp
      · simp
      · intro ended hended
        cases hended
        refine ⟨hjoined, ?_⟩
        intro answer heq
        cases heq
        refine ⟨hdrained, ?_⟩
        rintro rfl
        generalize hbefore : server.phase = before at hphase
        cases hphase with
        | drained deadline => exact h.draining deadline hbefore
        | aborted => exact (h.aborting _ hbefore).2 rfl

end Server

/-- The steps that need no client. -/
def ServerOp.isOwn : ServerOp → Bool
  | .stopAccepting | .finish | .graceElapses | .joinNext _ | .cancel _ => true
  | _ => false

namespace Server

variable {name : String} {shutdown : Bool} {now : Nat} {server next : Server} {op : ServerOp} {told : Nat → Prop}

/-- The server is done for or about to be. -/
def Failed (server : Server) : Prop :=
  ∃ error, server.phase = .aborting (.error error) ∨ server.phase = .ended (.error error) ∨
    server.phase = .ended (.ok (.error error))

/-- No connection is aborted by a server that works until it has had its time since some moment of these. -/
structure Patient (told : Nat → Prop) (now : Nat) (server : Server) : Prop where
  draining : ∀ deadline, server.phase = .draining deadline →
    deadline ≤ now + serverShutdownGrace ∧ ∃ start, told start ∧ start + serverShutdownGrace ≤ deadline
  aborted : .aborted ∈ server.connections →
    server.Failed ∨ ∃ start, told start ∧ start + serverShutdownGrace ≤ now

theorem patient_empty (told : Nat → Prop) (now : Nat) : empty.Patient told now :=
  ⟨by simp [empty], by simp [empty]⟩

theorem Patient.later {more : Nat → Prop} {later : Nat} (h : server.Patient told now)
    (hmore : ∀ start, told start → more start)
    (hle : now ≤ later) : server.Patient more later := by
  constructor
  · intro deadline hphase
    obtain ⟨hdeadline, start, htold, hstart⟩ := h.draining deadline hphase
    exact ⟨by omega, start, hmore start htold, hstart⟩
  · intro hmem
    rcases h.aborted hmem with hfailed | ⟨start, htold, hstart⟩
    · exact .inl hfailed
    · exact .inr ⟨start, hmore start htold, by omega⟩

theorem patient_abort {phase : ServerPhase} (h : server.Patient told now) (haborts : Aborts now server.phase phase)
    (connections : Server) : (connections.abortConnections phase).Patient told now := by
  generalize hbefore : server.phase = before at haborts
  cases haborts with
  | failed _ error => exact ⟨by simp [abortConnections], fun _ => .inl ⟨error, .inl rfl⟩⟩
  | elapsed deadline hdeadline =>
      obtain ⟨_, start, htold, hstart⟩ := h.draining deadline hbefore
      exact ⟨by simp [abortConnections], fun _ => .inr ⟨start, htold, by omega⟩⟩
  | panicked _ error => exact ⟨by simp [abortConnections], fun _ => .inl ⟨error, .inr (.inl rfl)⟩⟩

theorem patient_step (h : server.Patient told now) (htold : shutdown = true → ∃ start, told start ∧ start ≤ now)
    (hstep : Steps shutdown now server op next) : next.Patient told now := by
  cases hstep with
  | accepted hphase =>
      refine ⟨h.draining, ?_⟩
      intro hmem
      rcases List.mem_append.mp hmem with hmem | hmem
      · exact h.aborted hmem
      · cases List.mem_singleton.mp hmem
  | moved _ position before after _ hbefore hmoves =>
      refine ⟨h.draining, ?_⟩
      intro hmem
      rcases List.mem_or_eq_of_mem_set hmem with hmem | rfl
      · exact h.aborted hmem
      · cases hmoves
  | aborts _ phase _ haborts => exact patient_abort h haborts server
  | joinedFailure position error text hbefore haborts => exact patient_abort h haborts _
  | drains hphase hshutdown =>
      obtain ⟨start, hstart, hle⟩ := htold hshutdown
      refine ⟨?_, ?_⟩
      · intro deadline hdeadline
        cases hdeadline
        exact ⟨Nat.le_refl _, start, hstart, by omega⟩
      · intro hmem
        rcases h.aborted hmem with ⟨error, hfailed⟩ | hpatient
        · rw [hphase] at hfailed
          simp at hfailed
        · exact .inr hpatient
  | finishes result hphase hdrained =>
      refine ⟨by simp, ?_⟩
      intro hmem
      cases List.all_eq_true.mp hdrained _ hmem

/-- A server that is told to stop has something to do until it has ended, at the latest when its time is over. -/
theorem progress (name : String) (h : server.Sound true) (hpatient : server.Patient told now)
    (hphase : ∀ result, server.phase ≠ .ended result) :
    ∃ wait op next, wait ≤ serverShutdownGrace ∧ op.isOwn = true ∧
    server.step name true (now + wait) op = some next := by
  cases hcase : server.phase with
  | accepting => exact ⟨0, .stopAccepting, _, Nat.zero_le _, rfl, if_pos ⟨hcase, rfl⟩⟩
  | draining deadline =>
      obtain ⟨hdeadline, -⟩ := hpatient.draining deadline hcase
      have hwait : deadline ≤ now + (deadline - now) := by omega
      refine ⟨deadline - now, .graceElapses, server.abortConnections (.aborting (.ok ())), by omega, rfl, ?_⟩
      simp only [step, hcase, if_pos hwait]
  | aborting result =>
      by_cases hdrained : server.drained = true
      · refine ⟨0, .finish, { server with phase := .ended (.ok result) }, Nat.zero_le _, rfl, ?_⟩
        simp only [step, hcase, if_pos hdrained]
      · have hleft : ∃ connection ∈ server.connections, connection.isJoined = false := by
          simpa [drained] using hdrained
        obtain ⟨connection, hmem, hunjoined⟩ := hleft
        obtain ⟨position, hposition⟩ := List.mem_iff_getElem?.mp hmem
        have hclosed := (h.aborting result hcase).1 connection hmem
        cases connection with
        | serving | closing => cases hclosed
        | joined => cases hunjoined
        | aborted => exact ⟨0, .cancel position, _, Nat.zero_le _, rfl, if_pos hposition⟩
        | ended outcome =>
            refine ⟨0, .joinNext position, server.setConnection position (.joined outcome), Nat.zero_le _, rfl, ?_⟩
            simp only [step, hposition, hcase]
  | ended result => exact absurd hcase (hphase result)

/-- A server does not come back from its end. -/
theorem Steps.ended {result : Except String (Except String Unit)} (h : Steps shutdown now server op next)
    (hphase : server.phase = .ended result) : next.phase = .ended result := by
  have hnot : ∀ phase, ¬Aborts now server.phase phase := by
    rw [hphase]
    rintro phase (⟨_, _, hcases⟩ | _ | ⟨_, _, hcases⟩)
    · simp at hcases
    · exact hcases result rfl
  cases h with
  | accepted haccepting => rw [hphase] at haccepting; cases haccepting
  | moved => exact hphase
  | aborts _ phase _ haborts => exact absurd haborts (hnot phase)
  | joinedFailure _ _ _ _ haborts => exact absurd haborts (hnot _)
  | drains haccepting => rw [hphase] at haccepting; cases haccepting
  | finishes _ hfinishes => rw [hphase] at hfinishes; cases hfinishes

/-- Nor does it accept again. -/
theorem Steps.not_accepting (h : Steps shutdown now server op next) (hphase : server.phase ≠ .accepting) :
    next.phase ≠ .accepting ∧ op ≠ .accept := by
  cases h with
  | accepted haccepting => exact absurd haccepting hphase
  | moved _ _ _ _ hop => exact ⟨hphase, hop⟩
  | aborts _ phase hop haborts =>
      refine ⟨?_, hop⟩
      rintro rfl
      generalize server.phase = before at haborts
      cases haborts
  | joinedFailure => exact ⟨by simp [abortConnections], by simp⟩
  | drains haccepting => exact absurd haccepting hphase
  | finishes => exact ⟨by simp, by simp⟩

/-- No task of a connection runs any more. -/
def Quiet (server : Server) : Prop :=
  ∀ connection ∈ server.connections, connection.isOpen = false ∧ connection ≠ .aborted

theorem Steps.quiet {result : Except String (Except String Unit)} (h : Steps shutdown now server op next)
    (hphase : server.phase = .ended result) (hquiet : server.Quiet) : next.Quiet := by
  have hended := h.ended hphase
  cases h with
  | accepted haccepting => rw [hphase] at haccepting; cases haccepting
  | moved _ position before after _ hbefore hmoves =>
      intro connection hmem
      rcases List.mem_or_eq_of_mem_set hmem with hmem | rfl
      · exact hquiet connection hmem
      · have hstill := hquiet before (List.mem_of_getElem? hbefore)
        cases hmoves with
        | closed | served | finished => cases hstill.1
        | stopped => exact absurd rfl hstill.2
        | joined => exact ⟨rfl, by simp⟩
  | aborts _ phase _ haborts =>
      intro connection hmem
      obtain ⟨before, hbefore, rfl⟩ := List.mem_map.mp hmem
      have hstill := hquiet before hbefore
      cases before with
      | serving | closing => cases hstill.1
      | aborted => exact absurd rfl hstill.2
      | ended | joined => exact ⟨rfl, by simp [Connection.abort]⟩
  | joinedFailure _ _ _ _ haborts =>
      rw [hphase] at haborts
      cases haborts with
      | failed _ _ hcases => simp at hcases
  | drains haccepting => rw [hphase] at haccepting; cases haccepting
  | finishes => exact hquiet

end Server

end MistralrsProxy
