import Hitsuji.Client.Dispatch

set_option autoImplicit false

/-! # What one call writes

Every method of a client submits at most one buffer, and `Submit` is the only place where a client
touches the interest sets. So one statement about `Submit` holds of every method: there is one last
write at most, the buffer is written directly exactly when no output is pending on the socket, and
the socket is marked when RSSL keeps the buffer queued. -/

namespace Hitsuji

open ByteBuffer

/-- The codes that take `Submit` to its pending path. -/
def RsslRet.isPending : RsslRet → Bool
  | .pendingBytes _ | .writeFlushFailed | .bufferNoBuffers => true
  | _ => false

/-- The last `rsslWriteEx` of a buffer: RSSL does not ask for it again. Every `Submit` ends with
    one. -/
def Event.endsWrite : Event → Bool
  | .writeEx _ _ rc => decide (rc ≠ .writeCallAgain)
  | _ => false

/-- What a method may write, and what it may do to the interest in its socket. -/
structure Session.Writes (s : Session) (d : Done) : Prop where
  once : d.events.countP Event.endsWrite ≤ 1
  kept : s.provider.inWfds ⊆ d.session.provider.inWfds
  within : d.session.provider.inWfds ⊆ insert s.channel.socketId s.provider.inWfds
  accepting : d.session.provider.isAcceptingRequests = s.provider.isAcceptingRequests
  direct : ∀ out direct rc, Event.writeEx out direct rc ∈ d.events →
    direct = decide (s.channel.socketId ∉ s.provider.inWfds)
  pending : ∀ out direct rc, Event.writeEx out direct rc ∈ d.events → rc.isPending = true →
    s.channel.socketId ∈ d.session.provider.inWfds

/-- Nothing was written. -/
theorem writes_of_none (s : Session) (d : Done) (hprovider : d.session.provider = s.provider)
    (hevents : ∀ out direct rc, Event.writeEx out direct rc ∉ d.events) : s.Writes d where
  once := by
    have hnone : d.events.countP Event.endsWrite = 0 := by
      refine List.countP_eq_zero.mpr fun ev hev => ?_
      cases ev with
      | writeEx out direct rc => exact absurd hev (hevents out direct rc)
      | getBuffer | releaseBuffer | onRequest => exact Bool.false_ne_true
    rw [hnone]
    exact Nat.zero_le 1
  kept := by rw [hprovider]
  within := by
    rw [hprovider]
    exact Finset.subset_insert _ _
  accepting := by rw [hprovider]
  direct out direct rc hmem := absurd hmem (hevents out direct rc)
  pending out direct rc hmem := absurd hmem (hevents out direct rc)

/-- The client's own members play no part. -/
theorem writes_congr (s s' : Session) (d d' : Done) (hchannel : s'.channel = s.channel)
    (hprovider : s'.provider = s.provider) (hdone : d'.session.provider = d.session.provider)
    (hevents : d'.events = d.events) (h : s'.Writes d') : s.Writes d where
  once := by
    rw [← hevents]
    exact h.once
  kept := by
    rw [← hprovider, ← hdone]
    exact h.kept
  within := by
    rw [← hprovider, ← hdone, ← hchannel]
    exact h.within
  accepting := by
    rw [← hprovider, ← hdone]
    exact h.accepting
  direct := by
    rw [← hprovider, ← hchannel, ← hevents]
    exact h.direct
  pending := by
    rw [← hchannel, ← hdone, ← hevents]
    exact h.pending

/-! ## Submit -/

theorem mem_writeCalls (out out' : Outgoing) (direct direct' : Bool) (last rc : RsslRet) (n : Nat) :
    Event.writeEx out' direct' rc ∈ writeCalls out direct last n ↔
      out' = out ∧ direct' = direct ∧ (rc = last ∨ 0 < n ∧ rc = .writeCallAgain) := by
  induction n with
  | zero => simp [writeCalls]
  | succ n ih =>
      simp only [writeCalls, List.mem_cons, Event.writeEx.injEq, ih]
      constructor
      · rintro (⟨hout, hdirect, hrc⟩ | ⟨hout, hdirect, hrc | ⟨-, hrc⟩⟩)
        · exact ⟨hout, hdirect, .inr ⟨Nat.succ_pos n, hrc⟩⟩
        · exact ⟨hout, hdirect, .inl hrc⟩
        · exact ⟨hout, hdirect, .inr ⟨Nat.succ_pos n, hrc⟩⟩
      · rintro ⟨hout, hdirect, hrc | ⟨-, hrc⟩⟩
        · exact .inr ⟨hout, hdirect, .inl hrc⟩
        · exact .inl ⟨hout, hdirect, hrc⟩

/-- The `try_again` loop ends once. -/
theorem writeCalls_endsWrite (out : Outgoing) (direct : Bool) (last : RsslRet)
    (hlast : last ≠ .writeCallAgain) (n : Nat) :
    (writeCalls out direct last n).countP Event.endsWrite = 1 := by
  induction n with
  | zero => simp [writeCalls, Event.endsWrite, hlast]
  | succ n ih => simpa [writeCalls, Event.endsWrite] using ih

theorem submitOrRelease_endsWrite (env : Env) (s : Session) (out : Outgoing) :
    (s.submitOrRelease env out).events.countP Event.endsWrite = 1 := by
  have hwrites := writeCalls_endsWrite out (decide (s.channel.socketId ∉ s.provider.inWfds))
    env.writes.last env.writes.last_ne env.writes.again
  rw [submitOrRelease_eq, List.cons_append, List.countP_cons, List.countP_append, hwrites]
  split <;> rfl

theorem inWfds_afterSubmit (s : Session) (rc : RsslRet) :
    (s.afterSubmit rc).provider.inWfds
      = if rc.isPending then insert s.channel.socketId s.provider.inWfds
        else s.provider.inWfds := by
  cases rc <;> rfl

theorem isAcceptingRequests_afterSubmit (s : Session) (rc : RsslRet) :
    (s.afterSubmit rc).provider.isAcceptingRequests = s.provider.isAcceptingRequests := by
  cases rc <;> rfl

/-- A code of the loop that takes the pending path is the last one. -/
theorem writes_submitOrRelease (env : Env) (s : Session) (out : Outgoing) :
    s.Writes (s.submitOrRelease env out) := by
  have hmem : ∀ out' direct rc, Event.writeEx out' direct rc ∈ (s.submitOrRelease env out).events →
      direct = decide (s.channel.socketId ∉ s.provider.inWfds)
        ∧ (rc = env.writes.last ∨ rc = .writeCallAgain) := by
    intro out' direct rc h
    rw [submitOrRelease_eq] at h
    simp only [List.cons_append, List.mem_cons, reduceCtorEq, false_or, List.mem_append] at h
    rcases h with hwrite | hrelease
    · obtain ⟨-, hdirect, hrc⟩ := (mem_writeCalls _ _ _ _ _ _ _).mp hwrite
      exact ⟨hdirect, hrc.imp_right And.right⟩
    · split at hrelease <;> simp at hrelease
  have hwfds : (s.submitOrRelease env out).session.provider.inWfds
      = if env.writes.last.isPending then insert s.channel.socketId s.provider.inWfds
        else s.provider.inWfds := by
    rw [submitOrRelease_eq, inWfds_afterSubmit]
  refine ⟨(submitOrRelease_endsWrite env s out).le, ?_, ?_, ?_,
    fun out' direct rc h => (hmem out' direct rc h).1, ?_⟩
  · rw [hwfds]
    split
    · exact Finset.subset_insert _ _
    · exact fun _ h => h
  · rw [hwfds]
    split
    · exact fun _ h => h
    · exact Finset.subset_insert _ _
  · rw [submitOrRelease_eq, isAcceptingRequests_afterSubmit]
  · intro out' direct rc h hpending
    rcases (hmem out' direct rc h).2 with rfl | rfl
    · rw [hwfds, if_pos hpending]
      exact Finset.mem_insert_self _ _
    · exact absurd hpending (by decide)

theorem writes_sendEncoded (env : Env) (s : Session) (response : RsslMsg) (steps : List EncodeStep)
    (d : Done) (h : s.sendEncoded env response steps = some d) : s.Writes d := by
  rcases sendEncoded_cases env s response steps d h with
    ⟨-, rfl⟩ | ⟨-, -, rfl⟩ | ⟨-, -, rfl⟩ | ⟨calls, -, -, rfl⟩
  · exact writes_of_none s _ rfl (by simp)
  · exact writes_of_none s _ rfl (by simp)
  · exact writes_of_none s _ rfl (by simp)
  · exact writes_submitOrRelease env s _

/-! ## Methods -/

theorem writes_onLoginRequest (env : Env) (s : Session) (m : InMsg) (d : Done)
    (h : s.onLoginRequest env m = some d) : s.Writes d := by
  rcases onLoginRequest_cases env s m d h with ⟨-, d', hd', rfl⟩ | ⟨-, hreject⟩
  · have hwrites := writes_sendEncoded _ _ _ _ d' hd'
    split
    · exact writes_congr s s _ d' rfl rfl rfl rfl hwrites
    · exact hwrites
  · exact writes_sendEncoded _ _ _ _ d hreject

theorem writes_onMsg (env : Env) (s : Session) (m : InMsg) (d : Done)
    (h : s.onMsg env m = some d) : s.Writes d := by
  rcases onMsg_cases env s m d h with ⟨-, -, hlogin⟩ | ⟨-, -, hdir⟩ | ⟨-, -, hitem⟩
    | ⟨-, -, -, text, htext⟩ | ⟨-, rfl⟩ | ⟨-, -, hclose⟩
  · exact writes_onLoginRequest env s m d hlogin
  · obtain ⟨serviceName, hsend⟩ := onDirectoryRequest_cases env s m d hdir
    exact writes_congr s (s.setDirectoryToken m.streamId) d d rfl rfl rfl rfl
      (writes_sendEncoded _ _ _ _ d hsend)
  · rcases onItemRequest_cases env s m d hitem with ⟨-, hclose⟩ | ⟨-, -, rfl⟩ | ⟨-, -, -, rfl⟩
    · exact writes_sendEncoded _ _ _ _ d hclose
    · exact writes_of_none s _ rfl (by simp)
    · exact writes_of_none s _ rfl (by simp)
  · exact writes_sendEncoded _ _ _ _ d htext
  · -- a close message is never answered
    refine writes_of_none s _ ?_ ?_
    · simp only [Session.onCloseMsg, Session.onItemClose]
      repeat' split
      all_goals rfl
    · intro out direct rc
      simp only [Session.onCloseMsg, Session.onItemClose]
      repeat' split
      all_goals exact List.not_mem_nil
  · exact writes_sendEncoded _ _ _ _ d hclose

theorem writes_sendReply (env : Env) (s : Session) (token : Int32) (data : Bytes) (d : Done)
    (h : s.sendReply env token data = some d) : s.Writes d := by
  rcases sendReply_cases env s token data d h with ⟨-, rfl⟩ | ⟨-, -, rfl⟩ | ⟨-, -, rfl⟩
  · exact writes_of_none s _ rfl (by simp)
  · exact writes_congr s (s.eraseToken token) _ _ rfl rfl rfl rfl
      (writes_submitOrRelease env (s.eraseToken token) _)
  · exact writes_of_none s _ rfl (by simp)

theorem writes_close (env : Env) (s : Session) (d : Done) (h : s.close env = some d) :
    s.Writes d := by
  unfold Session.close at h
  split at h
  · exact writes_congr s s.dropRequests d d rfl rfl rfl rfl (writes_sendEncoded _ _ _ _ d h)
  · obtain rfl := Option.some.inj h
    exact writes_of_none s _ rfl (by simp)

/-- **Every method writes as `Submit` does.** -/
theorem writes_run (e : Call) (c : Client) (d : Done) (h : e.run c = some d) :
    (e.session c).Writes d := by
  unfold Call.run at h
  split at h
  · exact writes_onMsg _ _ _ d h
  · exact writes_sendReply _ _ _ _ d h
  · exact writes_close _ _ d h
  · exact writes_sendEncoded _ _ _ _ d h

end Hitsuji
