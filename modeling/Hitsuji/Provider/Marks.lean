import Hitsuji.Provider.Connections

set_option autoImplicit false

/-! # Marks for removal

`out_efds_` has two uses: `select` reports exceptions in it, and `Abort` and `Ping` mark in it the
connections that the loop is to remove. Which connection a step marks is a matter of what it reads
and of the clock, and nothing else writes to the set. -/

namespace Hitsuji

open ByteBuffer Transition

/-- `rsslPing` could not send all there is: `Ping` forces a disconnect. -/
def RsslRet.forcesDisconnect : RsslRet → Bool
  | .pendingBytes _ | .writeFlushFailed | .bufferNoBuffers => true
  | _ => false

namespace Pump

/-! ## Who is marked -/

/-- `provider_t::OnMsg` ends in an `Abort`. -/
def onMsgAborts (p : Pump) (c : UInt64) (env : Env) : Option InMsg → Bool
  | none => true
  | some m =>
      (p.pointee c).any fun k =>
        (p.clients k).any fun client => ((p.session k client).onMsg env m).any fun d => !d.ret

/-- `provider_t::OnActiveState` ends in an `Abort`. -/
def readExAborts (p : Pump) (c : UInt64) : ReadEx → Bool
  | .data _ (some (msg, env)) _ => p.onMsgAborts c env msg
  | _ => false

/-- `provider_t::OnCanReadWithoutBlocking` ends in an `Abort`. -/
def readAborts (p : Pump) (c : UInt64) (answer : ReadAnswer) : Bool :=
  match (p.links c).state, answer with
  | .closed, _ => true
  | .active, .readEx ret _ => p.readExAborts c ret
  | _, _ => false

/-- The keepalive of an active session comes to a failed `Ping` or to an `Abort`. -/
def keepaliveMarks (p : Pump) (c : UInt64) (rc : RsslRet) : Bool :=
  decide ((p.links c).userSpecPtr ≠ none ∧ (p.links c).state = .active)
    && ((p.pointee c).bind p.clients).any fun client =>
      decide (client.nextPing ≤ p.view.lastActivity) && rc.forcesDisconnect
        || decide (client.nextPong ≤ p.view.lastActivity)

/-- The connection that a step marks. -/
def marks (p : Pump) : Op → Option UInt64
  | .read i answer =>
      p.connections[i]?.filter fun c => decide (p.socketId c ∈ p.outRfds) && p.readAborts c answer
  | .keepalive i rc _ => p.connections[i]?.filter fun c => p.keepaliveMarks c rc
  | _ => none

/-! ## Sockets with an exception -/

theorem outEfds_leave (p : Pump) (c : UInt64) (left : Option Down) :
    (p.leave c left).outEfds = p.outEfds := by
  rw [leave_eq]

theorem outEfds_afterMethod (p : Pump) (k : UInt64) (d : Done) (left : Option Down) :
    (p.afterMethod k d left).outEfds = p.outEfds := by
  rw [afterMethod, outEfds_leave]
  rfl

theorem outEfds_modifyClient (p p' : Pump) (c : UInt64) (f : Client → Client)
    (h : p.modifyClient c f = some p') : p'.outEfds = p.outEfds := by
  unfold modifyClient at h
  split at h
  · obtain rfl := Option.some.inj h
    rfl
  · obtain ⟨k, -, hk⟩ := Option.bind_eq_some_iff.mp h
    obtain ⟨client, -, rfl⟩ := Option.map_eq_some_iff.mp hk
    rfl

theorem outEfds_onCanWrite (p : Pump) (c : UInt64) (rc : RsslRet) (left : Option Down)
    (h : Handled) (hrun : p.onCanWrite c rc left = some h) : h.pump.outEfds = p.outEfds := by
  unfold onCanWrite at hrun
  split at hrun
  · obtain ⟨p', hp', rfl⟩ := Option.map_eq_some_iff.mp hrun
    exact outEfds_modifyClient (p.clearPending c) p' c _ hp'
  · obtain rfl := Option.some.inj hrun
    exact outEfds_leave p c left

theorem outEfds_flushStream (p : Pump) (c : UInt64) (loop : FlushLoop) (left : Option Down) :
    (p.flushStream c loop left).pump.outEfds = p.outEfds := by
  unfold flushStream
  split
  · split
    · rfl
    · exact outEfds_leave p c left
  · rfl

theorem outEfds_ping (p : Pump) (c : UInt64) (rc : RsslRet) (left : Option Down) (h : Handled)
    (hrun : p.ping c rc left = some h) :
    h.pump.outEfds
      = if rc.forcesDisconnect then insert (p.socketId c) p.outEfds else p.outEfds := by
  unfold ping at hrun
  split at hrun
  case h_1 =>
    obtain ⟨p', hp', rfl⟩ := Option.map_eq_some_iff.mp hrun
    exact outEfds_modifyClient p p' c _ hp'
  case h_5 hsuccess hpending hflush hbuffers =>
    have hforces : rc.forcesDisconnect = false := by
      cases rc with
      | pendingBytes n => exact absurd rfl (hpending n)
      | writeFlushFailed => exact absurd rfl hflush
      | bufferNoBuffers => exact absurd rfl hbuffers
      | _ => rfl
    obtain rfl := Option.some.inj hrun
    rw [hforces]
    exact outEfds_leave p c left
  all_goals
    obtain rfl := Option.some.inj hrun
    exact outEfds_leave _ c left

/-- The set after a step that does or does not mark a connection. -/
def marking (p : Pump) (c : UInt64) (marked : Bool) : Finset Nat :=
  if marked then insert (p.socketId c) p.outEfds else p.outEfds

/-- Marking twice is marking once. -/
theorem insert_marking (p : Pump) (c : UInt64) (marked : Bool) :
    insert (p.socketId c) (p.marking c marked) = p.marking c true := by
  cases marked with
  | false => rfl
  | true => exact Finset.insert_idem _ _

theorem outEfds_abort (p : Pump) (c : UInt64) :
    (p.abort c).outEfds = insert (p.socketId c) p.outEfds := rfl

theorem outEfds_keepalive (p : Pump) (c : UInt64) (rc : RsslRet) (left : Option Down)
    (h : Handled) (hrun : p.keepalive c rc left = some h) :
    h.pump.outEfds = p.marking c (p.keepaliveMarks c rc) := by
  unfold keepalive at hrun
  unfold keepaliveMarks
  split at hrun
  · next hactive =>
      obtain ⟨client, hclient, hrun⟩ := Option.bind_eq_some_iff.mp hrun
      obtain ⟨h₁, hping, rfl⟩ := Option.map_eq_some_iff.mp hrun
      have hpinged : h₁.pump.socketId c = p.socketId c ∧ h₁.pump.outEfds
          = p.marking c (decide (client.nextPing ≤ p.view.lastActivity) && rc.forcesDisconnect) := by
        split at hping
        · next hdue =>
            rw [decide_eq_true hdue, Bool.true_and]
            exact ⟨socketId_of_books (serves_ping p c rc left h₁ hping).books c,
              outEfds_ping p c rc left h₁ hping⟩
        · next hdue =>
            obtain rfl := Option.some.inj hping
            rw [decide_eq_false hdue, Bool.false_and]
            exact ⟨rfl, rfl⟩
      rw [decide_eq_true hactive, Bool.true_and, hclient, Option.any_some]
      split
      · next hpong =>
          rw [decide_eq_true hpong, Bool.or_true, ← insert_marking, ← hpinged.1, ← hpinged.2]
          exact outEfds_abort h₁.pump c
      · next hpong =>
          rw [decide_eq_false hpong, Bool.or_false]
          exact hpinged.2
  · next hidle =>
      obtain rfl := Option.some.inj hrun
      rw [decide_eq_false hidle, Bool.false_and]
      rfl

theorem outEfds_onMsg (p : Pump) (c : UInt64) (msg : Option InMsg) (env : Env)
    (left : Option Down) (h : Handled) (hrun : p.onMsg c msg env left = some h) :
    h.pump.outEfds = p.marking c (p.onMsgAborts c env msg) := by
  cases msg with
  | none =>
      obtain rfl := Option.some.inj hrun
      rfl
  | some m =>
      obtain ⟨k, hk, hrun⟩ := Option.bind_eq_some_iff.mp hrun
      obtain ⟨client, hclient, hrun⟩ := Option.bind_eq_some_iff.mp hrun
      obtain ⟨d, hd, rfl⟩ := Option.map_eq_some_iff.mp hrun
      have hsame : (p.afterMethod k d left).outEfds = p.outEfds := outEfds_afterMethod p k d left
      have hsocket : (p.afterMethod k d left).socketId c = p.socketId c :=
        socketId_leave _ k left c
      simp only [onMsgAborts, hk, hclient, hd, Option.any_some]
      cases d.ret with
      | true => exact hsame
      | false =>
          show (abort _ c).outEfds = _
          rw [outEfds_abort, hsame, hsocket]
          rfl

theorem outEfds_onBuffer (p : Pump) (c : UInt64) (msg : Option InMsg) (env : Env)
    (left : Option Down) (h : Handled) (hrun : p.onBuffer c (some (msg, env)) left = some h) :
    h.pump.outEfds = p.marking c (p.onMsgAborts c env msg) := by
  obtain ⟨h₁, hmsg, hrun⟩ := Option.bind_eq_some_iff.mp hrun
  obtain ⟨p', hp', rfl⟩ := Option.map_eq_some_iff.mp hrun
  exact (outEfds_modifyClient h₁.pump p' c _ hp').trans (outEfds_onMsg p c msg env left h₁ hmsg)

theorem outEfds_onActiveClientSession (p : Pump) (c : UInt64) (session : NewSession) (left : Down)
    (h : Handled) (hrun : p.onActiveClientSession c session left = some h) :
    h.pump.outEfds = p.outEfds := by
  unfold onActiveClientSession at hrun
  split at hrun
  · obtain rfl := Option.some.inj hrun
    exact outEfds_leave p c (some left)
  · cases session with
    | thrown =>
        obtain rfl := Option.some.inj hrun
        rfl
    | uninitialized =>
        obtain rfl := Option.some.inj hrun
        exact outEfds_leave p c (some left)
    | initialized address directoryToken emplaced =>
        obtain ⟨-, hrun⟩ := Option.ite_none_left_eq_some.mp hrun
        obtain rfl := Option.some.inj hrun
        cases emplaced <;> rfl

theorem outEfds_onInitializingState (p : Pump) (c : UInt64) (ret : InitChannel)
    (session : NewSession) (left : Down) (h : Handled)
    (hrun : p.onInitializingState c ret session left = some h) : h.pump.outEfds = p.outEfds := by
  cases ret with
  | inProgress newSocket =>
      cases newSocket <;>
      · obtain rfl := Option.some.inj hrun
        rfl
  | success majorVersion minorVersion pingTimeout =>
      obtain ⟨h₁, hsession, rfl⟩ := Option.map_eq_some_iff.mp hrun
      exact outEfds_onActiveClientSession (p.activate c _ _ _) c session left h₁ hsession
  | failure left =>
      obtain rfl := Option.some.inj hrun
      exact outEfds_leave p c left

/-- Taking a channel out of service changes nothing for the message in hand. -/
theorem readExAborts_leave (p : Pump) (c : UInt64) (left : Option Down) (ret : ReadEx) :
    (p.leave c left).readExAborts c ret = p.readExAborts c ret := by
  cases left with
  | none => rfl
  | some d =>
      have hpointee : (p.leave c (some d)).pointee c = p.pointee c := by
        simp only [pointee, leave, setLink, Function.update_self]
      cases ret with
      | data positive buf left =>
          rcases buf with _ | ⟨_ | m, env⟩
          · rfl
          · rfl
          · simp only [readExAborts, onMsgAborts, hpointee]
            rfl
      | _ => rfl

theorem outEfds_onReadEx (p : Pump) (c : UInt64) (ret : ReadEx) (h : Handled)
    (hrun : p.onReadEx c ret = some h) :
    h.pump.outEfds = p.marking c (p.readExAborts c ret) := by
  cases ret with
  | congestionDetected | slowReader | packetGapDetected =>
      obtain rfl := Option.some.inj hrun
      unfold checkClosedState
      split <;> rfl
  | fdChange newSocket =>
      obtain rfl := Option.some.inj hrun
      rfl
  | ping =>
      obtain ⟨p', hp', rfl⟩ := Option.map_eq_some_iff.mp hrun
      exact outEfds_modifyClient p p' c _ hp'
  | failure =>
      obtain rfl := Option.some.inj hrun
      rfl
  | data positive buf left =>
      obtain ⟨h₁, hbuf, rfl⟩ := Option.map_eq_some_iff.mp hrun
      have hread : h₁.pump.outEfds = p.marking c (p.readExAborts c (.data positive buf left)) := by
        cases buf with
        | none =>
            obtain rfl := Option.some.inj hbuf
            rfl
        | some buf => exact outEfds_onBuffer p c buf.1 buf.2 left h₁ hbuf
      cases positive <;> exact hread

theorem outEfds_onCanRead (p : Pump) (c : UInt64) (answer : ReadAnswer) (h : Handled)
    (hrun : p.onCanRead c answer = some h) :
    h.pump.outEfds = p.marking c (p.readAborts c answer) := by
  unfold onCanRead at hrun
  unfold readAborts
  split at hrun
  case h_1 hstate =>
    obtain rfl := Option.some.inj hrun
    rw [hstate]
    rfl
  case h_2 ret session left hstate =>
    rw [hstate]
    exact outEfds_onInitializingState p c ret session left h hrun
  case h_3 ret left hstate =>
    rw [hstate]
    have hread := outEfds_onReadEx (p.leave c left) c ret h hrun
    rw [readExAborts_leave] at hread
    rw [hread, marking, socketId_leave, outEfds_leave]
    rfl
  case h_4 hstate =>
    obtain rfl := Option.some.inj hrun
    rw [hstate]
    rfl
  case h_5 code hstate =>
    obtain rfl := Option.some.inj hrun
    rw [hstate]
    rfl
  case h_6 => exact absurd hrun (by simp)

theorem outEfds_onReplySocket (p : Pump) (env : Env) (z : ReadEnv) (msg : Bytes)
    (left : Option Down) (h : Handled) (hrun : p.onReplySocket env z msg left = some h) :
    h.pump.outEfds = p.outEfds := by
  obtain ⟨⟨q, events⟩, hread, rfl⟩ := Option.map_eq_some_iff.mp hrun
  refine (outEfds_leave _ _ _).trans ?_
  obtain ⟨out, ⟨rfl, -⟩ | ⟨view, client, d, -, -, -, -, rfl, -⟩⟩ :=
    onReplySocket_cases env z p.toProvider q msg events hread
  · rfl
  · rfl

theorem outEfds_onConnection (p : Pump) (accepted : Option Accepted) :
    (p.onConnection accepted).pump.outEfds = p.outEfds := by
  unfold onConnection
  split
  · rfl
  · cases accepted <;> rfl

theorem outEfds_disconnect (p : Pump) (i : Nat) (c : UInt64) (left : Down) :
    (p.disconnect i c left).pump.outEfds = p.outEfds := by
  rw [disconnect_eq]
  rfl

theorem outEfds_notify (p : Pump) (c : UInt64) (env : Env) (left : Option Down) (loop : FlushLoop)
    (leftByFlush : Option Down) (h : Handled)
    (hrun : p.notify c env left loop leftByFlush = some h) : h.pump.outEfds = p.outEfds := by
  obtain ⟨client, -, hclose⟩ := Option.bind_eq_some_iff.mp hrun
  obtain ⟨d, -, rfl⟩ := Option.map_eq_some_iff.mp hclose
  exact (outEfds_flushStream _ c loop leftByFlush).trans (outEfds_afterMethod p c d left)

/-- **A step adds to `out_efds_` the socket of the connection it marks, and nothing else**, unless it
    is a `select`. -/
theorem mem_outEfds_exec (p : Pump) (op : Op) (h : Handled)
    (hop : ∀ n rfds wfds efds, op ≠ .select n rfds wfds efds) (hrun : p.exec op = some h)
    (s : Nat) :
    s ∈ h.pump.outEfds ↔ s ∈ p.outEfds ∨ ∃ c, p.marks op = some c ∧ p.socketId c = s := by
  have hsame : h.pump.outEfds = p.outEfds → p.marks op = none →
      (s ∈ h.pump.outEfds ↔ s ∈ p.outEfds ∨ ∃ c, p.marks op = some c ∧ p.socketId c = s) := by
    intro hout hmarks
    simp [hout, hmarks]
  have hmarking : ∀ c marked, p.marks op = (if marked then some c else none) →
      h.pump.outEfds = p.marking c marked →
      (s ∈ h.pump.outEfds ↔ s ∈ p.outEfds ∨ ∃ c, p.marks op = some c ∧ p.socketId c = s) := by
    intro c marked hmarks hout
    rw [hout, hmarks]
    cases marked with
    | false => simp [marking]
    | true => simp [marking, or_comm, eq_comm]
  cases op with
  | select n rfds wfds efds => exact absurd rfl (hop n rfds wfds efds)
  | doWork | returns | throw | close =>
      obtain rfl := Option.some.inj hrun
      exact hsame rfl rfl
  | start =>
      obtain ⟨listening, -, rfl⟩ := Option.map_eq_some_iff.mp hrun
      exact hsame rfl rfl
  | reply env z msg left =>
      refine hsame ?_ rfl
      simp only [exec] at hrun
      split at hrun
      · exact outEfds_onReplySocket p env z msg left h hrun
      · obtain rfl := Option.some.inj hrun
        rfl
  | connection accepted =>
      obtain ⟨listening, -, rfl⟩ := Option.map_eq_some_iff.mp hrun
      refine hsame ?_ rfl
      split
      · exact outEfds_onConnection (p.clearRead listening) accepted
      · rfl
  | read i answer =>
      obtain ⟨c, hc, hread⟩ := Option.bind_eq_some_iff.mp hrun
      refine hmarking c (decide (p.socketId c ∈ p.outRfds) && p.readAborts c answer) ?_ ?_
      · rw [marks, hc, Option.filter_some]
      · split at hread
        · next hready =>
            rw [decide_eq_true hready, Bool.true_and]
            exact outEfds_onCanRead (p.clearRead (p.socketId c)) c answer h hread
        · next hready =>
            obtain rfl := Option.some.inj hread
            rw [decide_eq_false hready, Bool.false_and]
            rfl
  | write i rc left =>
      obtain ⟨c, -, hwrite⟩ := Option.bind_eq_some_iff.mp hrun
      refine hsame ?_ rfl
      split at hwrite
      · have hout := outEfds_onCanWrite _ c rc left h hwrite
        exact hout
      · obtain rfl := Option.some.inj hwrite
        rfl
  | keepalive i rc left =>
      obtain ⟨c, hc, hkeep⟩ := Option.bind_eq_some_iff.mp hrun
      refine hmarking c (p.keepaliveMarks c rc) ?_ (outEfds_keepalive p c rc left h hkeep)
      rw [marks, hc, Option.filter_some]
  | disconnect i left =>
      obtain ⟨c, -, hdisconnect⟩ := Option.bind_eq_some_iff.mp hrun
      obtain rfl := Option.some.inj hdisconnect
      refine hsame ?_ rfl
      split
      · exact outEfds_disconnect p i _ left
      · rfl
  | directoryUpdate c env left =>
      obtain ⟨client, -, hupdate⟩ := Option.bind_eq_some_iff.mp hrun
      obtain ⟨d, -, rfl⟩ := Option.map_eq_some_iff.mp hupdate
      exact hsame (outEfds_afterMethod p c d left) rfl
  | drain =>
      refine hsame ?_ rfl
      simp only [exec] at hrun
      split at hrun
      · obtain ⟨listening, -, rfl⟩ := Option.map_eq_some_iff.mp hrun
        rfl
      · obtain rfl := Option.some.inj hrun
        rfl
  | notify c env left loop leftByFlush =>
      exact hsame (outEfds_notify p c env left loop leftByFlush h hrun) rfl
  | teardown left =>
      obtain rfl := Option.some.inj hrun
      refine hsame ?_ rfl
      simp only [teardown]
      rw [closeConnections_eq]

end Pump

end Hitsuji
