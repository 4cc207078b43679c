import Hitsuji.Worker.History

set_option autoImplicit false

/-! # Independence of earlier requests

Whether the reply to a request is the one a fresh worker gives. It is not when the database delivers
no permission record for the symbol: `GetDacsLock` reports success without touching the string, and
`WriteRaw` attaches the lock of an earlier symbol. -/

namespace Hitsuji

open ByteBuffer UrlParse Transition

/-! ## Runs of a worker -/

/-- A request message, and the world it is processed in. -/
abbrev Task := TaskEnv × Bytes

/-- The worker goes on as long as `OnTask` returns true. -/
def workerSystem : System Worker Task where
  init w := ∃ rssl, w = Worker.initial rssl
  step w task w' := ∃ d, w.onTask task.1 task.2 = some d ∧ d.ret = true ∧ d.worker = w'

/-- The reply to a request, if one is sent. -/
def Worker.reply (w : Worker) (task : Task) : Option Bytes :=
  (w.onTask task.1 task.2).bind TaskDone.reply

/-- The permission record the database delivers for a request. -/
def delivered (task : Task) : Option Bytes :=
  match decodeRequest .lengthFirst task.2 with
  | .ok (some view) => (outcome task.1.db (view.name task.2)).delivered
  | _ => none

/-- The record delivered last. -/
def carriedLock (tasks : List Task) : Bytes :=
  tasks.foldl (fun lock task => (delivered task).getD lock) []

theorem serve_lock (task : Task) (lock lock' : Bytes) (answer : Answer)
    (h : serve task.1 task.2 lock = some (answer, lock')) :
    lock' = (delivered task).getD lock := by
  unfold serve at h
  unfold delivered
  generalize decodeRequest .lengthFirst task.2 = decoded at h ⊢
  rcases decoded with fault | _ | view
  · exact absurd h (by simp)
  · exact (Prod.mk.inj (Option.some.inj h)).2.symm
  · obtain ⟨_, -, heq⟩ := Option.map_eq_some_iff.mp h
    exact (Prod.mk.inj heq).2.symm

/-- **The lock a worker carries is the permission record it was given last.** -/
theorem last_dacsLock (w₀ : Worker) (p : Steps Worker Task) (hrun : workerSystem.Run w₀ p) :
    (last w₀ p).dacsLock = carriedLock (p.map Prod.fst) := by
  obtain ⟨⟨rssl, rfl⟩, hsteps⟩ := hrun
  refine last_foldl workerSystem.step Worker.dacsLock _ ?_ _ p hsteps
  rintro w task w' ⟨d, hd, -, rfl⟩
  have heffect := w.onTask_effect task.1 task.2
  rw [hd] at heffect
  exact serve_lock task w.dacsLock _ _ heffect.symm

theorem reply_serve (w : Worker) (task : Task) :
    w.reply task = (serve task.1 task.2 w.dacsLock).bind fun effect => effect.1.2 := by
  rw [← w.onTask_effect task.1 task.2, Worker.reply]
  cases w.onTask task.1 task.2 <;> rfl

/-! ## What a reply gives away -/

/-- `rsslDecodeMsg` gives back the message class and the permission data of a message that was
    encoded completely. -/
structure Codec.Decodes (codec : Codec) (decode : Bytes → Option (MsgClass × Bytes)) : Prop where
  refresh : ∀ dcheckIsOn rwfVersion token serviceId itemName dacsLock fields length calls,
    encodeWith codec (refreshSteps dcheckIsOn rwfVersion
      (refreshResponse token serviceId itemName dacsLock) fields length) = .complete calls →
    decode (codec.image calls) = some (.refresh, dacsLock)
  status : ∀ dcheckIsOn rwfVersion args length calls,
    encodeWith codec (writeRawClose dcheckIsOn rwfVersion args length) = .complete calls →
    decode (codec.image calls) = some (.status, [])

/-- The reply to a request is a message of this class with this permission data. -/
def Carries (decode : Bytes → Option (MsgClass × Bytes)) (view : RequestView)
    (message : MsgClass × Bytes) (reply : Bytes) : Prop :=
  ∃ image, reply = replyImage view.handle view.token image.length image
    ∧ decode image = some message

section

variable (decode : Bytes → Option (MsgClass × Bytes)) (env : TaskEnv) (view : RequestView)
  (itemName : Bytes)

theorem carries_unique (m m' : MsgClass × Bytes) (reply : Bytes) (h : Carries decode view m reply)
    (h' : Carries decode view m' reply) : m = m' := by
  obtain ⟨image, rfl, hm⟩ := h
  obtain ⟨image', heq, hm'⟩ := h'
  obtain rfl : image = image' := (List.append_inj heq (by simp)).2
  exact Option.some.inj (hm.symm.trans hm')

theorem close_carries (hcodec : env.codec.Decodes decode) (streamState : StreamState)
    (statusCode : StatusCode) (statusText reply : Bytes)
    (h : (closeAnswer env view itemName streamState statusCode statusText).bind Prod.snd
      = some reply) : Carries decode view (.status, []) reply := by
  obtain ⟨calls, hcalls, rfl⟩ :=
    closeAnswer_reply env view itemName streamState statusCode statusText reply h
  exact ⟨_, rfl, hcodec.status _ _ _ _ calls hcalls⟩

variable (a : Analytic) (lock : Bytes)

/-- A refresh that cannot be encoded is answered with a status. -/
theorem incomplete_carries (hcodec : env.codec.Decodes decode) (reply : Bytes)
    (hincomplete : (refreshWrite env view itemName a lock).isComplete = false)
    (h : (refreshAnswer env view itemName a lock).bind Prod.snd = some reply) :
    Carries decode view (.status, []) reply := by
  rcases refreshAnswer_reply env view itemName a lock reply h with ⟨calls, hcalls, -⟩ | ⟨-, hclose⟩
  · rw [hcalls] at hincomplete
    exact absurd hincomplete (by simp [Encoded.isComplete])
  · exact close_carries decode env view itemName hcodec _ _ _ reply hclose

/-- A refresh that is sent carries the lock. -/
theorem complete_carries (hcodec : env.codec.Decodes decode) (hattaches : a.attachesLock = true)
    (hsend : env.msgInitSize = true ∧ env.msgSend = true)
    (hcomplete : (refreshWrite env view itemName a lock).isComplete = true) :
    ∃ reply, (refreshAnswer env view itemName a lock).bind Prod.snd = some reply
      ∧ Carries decode view (.refresh, lock) reply := by
  unfold refreshAnswer
  split
  · next calls hcalls =>
      have hdecode := hcodec.refresh _ _ _ _ _ _ _ _ calls hcalls
      rw [if_pos hattaches] at hdecode
      refine ⟨replyImage view.handle view.token _ (env.codec.image calls), ?_, _, rfl, hdecode⟩
      simp [sent, hsend]
  · next hcalls => exact absurd hcomplete (by simp [hcalls, Encoded.isComplete])
  · next hcalls => exact absurd hcomplete (by simp [hcalls, Encoded.isComplete])

/-- `WriteRaw` asserts that there is an item name, and nothing else. -/
theorem writeRaw_asserted (codec : Codec) (dcheckIsOn : Bool) (rwfVersion : UInt16) (token : Int32)
    (serviceId : UInt16) (length : Nat) :
    encodeWith codec (a.writeRaw dcheckIsOn rwfVersion token serviceId itemName lock length)
        = .checkFailed
      ↔ (dcheckIsOn && itemName.isEmpty) = true := by
  refine (runSteps_asserted codec [] _ (!(dcheckIsOn && itemName.isEmpty)) ?_).trans (by simp)
  simp [EncodeStep.orReturn]

/-- Whether the assertion on the item name fails does not depend on the lock. -/
theorem refreshWrite_checkFailed : refreshWrite env view itemName a lock = .checkFailed
    ↔ (env.dcheckIsOn && itemName.isEmpty) = true :=
  writeRaw_asserted itemName a lock env.codec env.dcheckIsOn view.rwfVersion view.token
    view.serviceId maxMsgSize

theorem incomplete_eq (lock' : Bytes)
    (h : (refreshWrite env view itemName a lock).isComplete = false)
    (h' : (refreshWrite env view itemName a lock').isComplete = false) :
    refreshAnswer env view itemName a lock = refreshAnswer env view itemName a lock' := by
  have hfailed := (refreshWrite_checkFailed env view itemName a lock).trans
    (refreshWrite_checkFailed env view itemName a lock').symm
  unfold refreshAnswer
  generalize refreshWrite env view itemName a lock = encoded at *
  generalize refreshWrite env view itemName a lock' = encoded' at *
  cases encoded with
  | complete calls => exact absurd h (by simp [Encoded.isComplete])
  | checkFailed =>
      obtain rfl : encoded' = .checkFailed := hfailed.mp rfl
      rfl
  | failed exit =>
      cases encoded' with
      | complete calls => exact absurd h' (by simp [Encoded.isComplete])
      | checkFailed => exact absurd (hfailed.mpr rfl) (by simp)
      | failed exit' => rfl

/-- The reply to a refresh tells the lock, unless it cannot be encoded. -/
theorem refreshReply_eq_iff (hcodec : env.codec.Decodes decode) (hattaches : a.attachesLock = true)
    (hsend : env.msgInitSize = true ∧ env.msgSend = true) (lock' : Bytes) (hne : lock ≠ lock') :
    (refreshAnswer env view itemName a lock).bind Prod.snd
        = (refreshAnswer env view itemName a lock').bind Prod.snd
      ↔ (refreshWrite env view itemName a lock).isComplete = false
        ∧ (refreshWrite env view itemName a lock').isComplete = false := by
  -- a complete refresh is told from any other reply under the other lock
  have htells : ∀ l l', l ≠ l' → (refreshWrite env view itemName a l).isComplete = true →
      (refreshAnswer env view itemName a l).bind Prod.snd
        ≠ (refreshAnswer env view itemName a l').bind Prod.snd := by
    intro l l' hll hcomplete heq
    obtain ⟨reply, hreply, hcarries⟩ :=
      complete_carries decode env view itemName a l hcodec hattaches hsend hcomplete
    rw [hreply] at heq
    cases hother : (refreshWrite env view itemName a l').isComplete with
    | true =>
        obtain ⟨reply', hreply', hcarries'⟩ :=
          complete_carries decode env view itemName a l' hcodec hattaches hsend hother
        obtain rfl : reply = reply' := Option.some.inj (heq.trans hreply')
        have hm := carries_unique decode view _ _ reply hcarries hcarries'
        exact hll (Prod.mk.inj hm).2
    | false =>
        have hstatus :=
          incomplete_carries decode env view itemName a l' hcodec reply hother heq.symm
        -- no message is both a refresh and a status
        have hm := carries_unique decode view _ _ reply hcarries hstatus
        exact absurd (Prod.mk.inj hm).1 (by decide)
  constructor
  · intro heq
    refine ⟨?_, ?_⟩
    · exact Bool.eq_false_iff.mpr fun h => htells lock lock' hne h heq
    · exact Bool.eq_false_iff.mpr fun h => htells lock' lock hne.symm h heq.symm
  · rintro ⟨h, h'⟩
    rw [incomplete_eq env view itemName a lock lock' h h']

end

/-! ## Independence -/

/-- A lock that earlier requests left shows in the reply: ZeroMQ sends it, a response is due for a
    symbol without a permission record, from an implementation that attaches locks, and RSSL accepts
    the response with this lock or without one. -/
def LockShows (task : Task) (lock : Bytes) : Prop :=
  lock ≠ [] ∧ (task.1.msgInitSize = true ∧ task.1.msgSend = true) ∧
    ∃ view a, decodeRequest .lengthFirst task.2 = .ok (some view)
      ∧ outcome task.1.db (view.name task.2) = ⟨none, .refresh a⟩ ∧ a.attachesLock = true
      ∧ ((refreshWrite task.1 view (view.name task.2) a lock).isComplete = true
        ∨ (refreshWrite task.1 view (view.name task.2) a []).isComplete = true)

/-- The reply of a task that decodes. -/
theorem serve_reply (task : Task) (lock : Bytes) (view : RequestView)
    (hview : decodeRequest .lengthFirst task.2 = .ok (some view)) :
    ((serve task.1 task.2 lock).bind fun effect => effect.1.2)
      = ((outcome task.1.db (view.name task.2)).result.answer task.1 view (view.name task.2)
          ((outcome task.1.db (view.name task.2)).delivered.getD lock)).bind Prod.snd := by
  simp only [serve, hview, Outcome.effect]
  generalize Result.answer _ _ _ _ _ = answer
  cases answer <;> rfl

theorem unsent_reply (env : TaskEnv) (view : RequestView) (itemName lock : Bytes) (r : Result)
    (hsend : ¬ (env.msgInitSize = true ∧ env.msgSend = true)) :
    (r.answer env view itemName lock).bind Prod.snd = none := by
  have hsent : ∀ image, (sent env view image).2 = none := by
    intro image
    unfold sent
    split
    · next hinit => exact if_neg fun h => hsend ⟨hinit, h⟩
    · rfl
  have hclose : ∀ streamState statusCode statusText,
      (closeAnswer env view itemName streamState statusCode statusText).bind Prod.snd = none := by
    intro streamState statusCode statusText
    unfold closeAnswer
    split
    · exact hsent _
    · rfl
    · rfl
  cases r with
  | close streamState statusCode statusText => exact hclose ..
  | refresh a =>
      simp only [Result.answer, refreshAnswer]
      split
      · exact hsent _
      · exact hclose ..
      · rfl

theorem outcome_reply_eq_iff (decode : Bytes → Option (MsgClass × Bytes)) (env : TaskEnv)
    (view : RequestView) (itemName lock : Bytes) (o : Outcome) (hcodec : env.codec.Decodes decode)
    (hsend : env.msgInitSize = true ∧ env.msgSend = true) (hne : lock ≠ []) :
    (o.result.answer env view itemName (o.delivered.getD lock)).bind Prod.snd
        = (o.result.answer env view itemName (o.delivered.getD [])).bind Prod.snd
      ↔ ¬ ∃ a, o = ⟨none, .refresh a⟩ ∧ a.attachesLock = true
        ∧ ((refreshWrite env view itemName a lock).isComplete = true
          ∨ (refreshWrite env view itemName a []).isComplete = true) := by
  rcases o with ⟨delivered | record, result⟩
  · cases result with
    | close streamState statusCode statusText => simp [Result.answer]
    | refresh a =>
        simp only [Result.answer, Option.getD_none, Outcome.mk.injEq, Result.refresh.injEq,
          true_and, exists_eq_left']
        by_cases hattaches : a.attachesLock = true
        · rw [refreshReply_eq_iff decode env view itemName a lock hcodec hattaches hsend [] hne]
          simp [hattaches]
        -- `test_t` leaves the lock out
        · have hwrite : refreshWrite env view itemName a lock
              = refreshWrite env view itemName a [] := by
            simp only [refreshWrite, Analytic.writeRaw, if_neg hattaches]
          simp [refreshAnswer, hwrite, hattaches]
  · simp

/-- The lock shows exactly where it makes a difference. -/
theorem serve_reply_eq_iff (decode : Bytes → Option (MsgClass × Bytes)) (task : Task)
    (hcodec : task.1.codec.Decodes decode) (lock : Bytes) :
    ((serve task.1 task.2 lock).bind fun effect => effect.1.2)
        = ((serve task.1 task.2 []).bind fun effect => effect.1.2) ↔ ¬ LockShows task lock := by
  by_cases hne : lock = []
  · simp [hne, LockShows]
  cases hview : decodeRequest .lengthFirst task.2 with
  | error fault => simp [serve, LockShows, hview]
  | ok decoded =>
      cases decoded with
      | none => simp [serve, LockShows, hview]
      | some view =>
          rw [serve_reply task lock view hview, serve_reply task [] view hview]
          by_cases hsend : task.1.msgInitSize = true ∧ task.1.msgSend = true
          · rw [outcome_reply_eq_iff decode _ _ _ _ _ hcodec hsend hne]
            simp [LockShows, hne, hsend, hview]
          · rw [unsent_reply _ _ _ _ _ hsend, unsent_reply _ _ _ _ _ hsend]
            exact iff_of_true rfl fun h => hsend h.2.1

/-- **A worker answers as a fresh one does exactly when no lock of an earlier symbol shows.** -/
theorem reply_independent_iff (w₀ : Worker) (p : Steps Worker Task)
    (hrun : workerSystem.Run w₀ p) (rssl : RsslBuf) (task : Task)
    (decode : Bytes → Option (MsgClass × Bytes)) (hcodec : task.1.codec.Decodes decode) :
    (last w₀ p).reply task = (Worker.initial rssl).reply task
      ↔ ¬ LockShows task (carriedLock (p.map Prod.fst)) := by
  rw [reply_serve, reply_serve, last_dacsLock w₀ p hrun]
  exact serve_reply_eq_iff decode task hcodec _

/-- The class and the permission data of a message. -/
def RsslMsg.tag (m : RsslMsg) : Bytes :=
  (if m.msgClass = .refresh then 1 else 0) :: m.permData

/-- An encoder that writes no more than that, and refuses what does not fit the buffer. -/
def Codec.tagging : Codec where
  ret
    | .setBuffer capacity :: _, .msgInit m maxSize =>
        if m.tag.length ≤ capacity then willingRet (.msgInit m maxSize) else .failure 1
    | .setBuffer capacity :: _, .msg m => if m.tag.length ≤ capacity then .success else .failure 1
    | _, c => willingRet c
  image
    | .setBuffer capacity :: .setRwfVersion _ _ :: .msgInit m _ :: _
    | .setBuffer capacity :: .setRwfVersion _ _ :: .msg m :: _ => m.tag.take capacity
    | _ => []
  image_length_le := by
    intro capacity calls
    split
    · next heq =>
        obtain rfl := EncodeCall.setBuffer.inj (List.cons.inj heq).1
        exact List.length_take_le _ _
    · next heq =>
        obtain rfl := EncodeCall.setBuffer.inj (List.cons.inj heq).1
        exact List.length_take_le _ _
    · exact Nat.zero_le _

/-- Reading it back. -/
def decodeTag : Bytes → Option (MsgClass × Bytes)
  | [] => none
  | tag :: permData => some (if tag = 1 then .refresh else .status, permData)

/-- A message that is encoded completely fits the buffer. -/
theorem tagging_image (ok : Bool) (capacity : Nat) (major minor : UInt8) (m : RsslMsg)
    (c : EncodeCall) (hc : c = .msg m ∨ c = .msgInit m 0) (expect : RsslRet)
    (hexpect : expect = .success ∨ expect = .encodeContainer) (exit : Exit)
    (rest : List EncodeStep) (calls : List EncodeCall)
    (h : encodeWith Codec.tagging (.dcheck ok :: .call (.setBuffer capacity) .success exit
      :: .call (.setRwfVersion major minor) .success exit :: .call c expect exit :: rest)
      = .complete calls) : Codec.tagging.image calls = m.tag := by
  have hcalls := runSteps_complete Codec.tagging [] calls _ h
  have hret : Codec.tagging.ret [.setBuffer capacity, .setRwfVersion major minor] c = expect := by
    cases ok with
    | false => exact absurd h (by simp [encodeWith, runSteps])
    | true =>
        by_contra hne
        have hfailed : ∀ calls', runSteps Codec.tagging [.setBuffer capacity,
            .setRwfVersion major minor] (.call c expect exit :: rest) ≠ .complete calls' := by
          intro calls'
          rw [runSteps, if_neg hne]
          simp
        exact hfailed calls h
  have hfits : m.tag.length ≤ capacity := by
    by_contra hlong
    have hrefused : Codec.tagging.ret [.setBuffer capacity, .setRwfVersion major minor] c
        = .failure 1 := by
      rcases hc with rfl | rfl <;> exact if_neg hlong
    rw [hrefused] at hret
    rcases hexpect with rfl | rfl <;> simp at hret
  rw [hcalls]
  rcases hc with rfl | rfl <;> exact List.take_of_length_le hfits

theorem tagging_decodes : Codec.tagging.Decodes decodeTag where
  refresh := by
    intro dcheckIsOn rwfVersion token serviceId itemName dacsLock fields length calls h
    rw [tagging_image _ length _ _ (refreshResponse token serviceId itemName dacsLock) _
      (.inr rfl) _ (.inr rfl) .returnFalse _ calls h]
    rfl
  status := by
    intro dcheckIsOn rwfVersion args length calls h
    rw [tagging_image _ length _ _ args.response _ (.inl rfl) _ (.inl rfl) .cleanup _ calls h]
    rfl

/-- Two known symbols without trades, one of them with a permission record. -/
def oneRecord : FlexRecords ℚ where
  isSymbolExists _ := true
  permData symbol := ⟨if symbol = ascii "u" then some [1] else none, false⟩
  trades _ _ _ := some []
  newestTrade _ _ _ := some []
  rollups _ _ _ _ := some []
  notADateTime := 0

/-- A request for an item, against this database. -/
def askFor (itemName : Bytes) : Task where
  fst := ⟨oneRecord, .tagging, false, fun _ => 0, true, true⟩
  snd := requestImage ⟨0x7f00, 0x0e00, 5, 1, itemName, false, none⟩

section Replay

set_option maxRecDepth 20000

theorem carriedLock_askFor : carriedLock [askFor (ascii "u")] = [1] := rfl

/-- A fresh worker is asked for the symbol with the record. -/
theorem askFor_run (rssl : RsslBuf) : ∃ p, workerSystem.Run (.initial rssl) p
    ∧ p.map Prod.fst = [askFor (ascii "u")] := by
  obtain ⟨reply, hserve⟩ : ∃ reply, serve (askFor (ascii "u")).1 (askFor (ascii "u")).2 []
      = some ((true, some reply), [1]) := ⟨_, rfl⟩
  have heffect := (Worker.initial rssl).onTask_effect (askFor (ascii "u")).1 (askFor (ascii "u")).2
  rw [show (Worker.initial rssl).dacsLock = [] from rfl, hserve] at heffect
  obtain ⟨d, hd, hdone⟩ := Option.map_eq_some_iff.mp heffect
  have hret : d.ret = true := congrArg (fun effect => effect.1.1) hdone
  exact ⟨[(askFor (ascii "u"), d.worker)], ⟨⟨rssl, rfl⟩, ⟨d, hd, hret, rfl⟩, trivial⟩, rfl⟩

/-- Asked again, the worker answers as a fresh one: the symbol has a record of its own. -/
theorem ownRecord_independent : ∃ p, workerSystem.Run (.initial (.zeros 0 (by decide))) p
    ∧ p.map Prod.fst = [askFor (ascii "u")]
    ∧ (last (.initial (.zeros 0 (by decide))) p).reply (askFor (ascii "u"))
      = (Worker.initial (.zeros 0 (by decide))).reply (askFor (ascii "u")) := by
  obtain ⟨p, hrun, hp⟩ := askFor_run (.zeros 0 (by decide))
  refine ⟨p, hrun, hp, (reply_independent_iff _ p hrun _ _ decodeTag tagging_decodes).mpr ?_⟩
  rintro ⟨-, -, view, a, hview, houtcome, -⟩
  have hdelivered : delivered (askFor (ascii "u")) = some [1] := rfl
  simp only [delivered, hview, houtcome] at hdelivered
  exact absurd hdelivered (by simp)

/-- Asked for the other symbol, it attaches the lock of the first. -/
theorem staleLock_shows : ∃ p, workerSystem.Run (.initial (.zeros 0 (by decide))) p
    ∧ p.map Prod.fst = [askFor (ascii "u")]
    ∧ (last (.initial (.zeros 0 (by decide))) p).reply (askFor (ascii "w"))
      ≠ (Worker.initial (.zeros 0 (by decide))).reply (askFor (ascii "w")) := by
  obtain ⟨p, hrun, hp⟩ := askFor_run (.zeros 0 (by decide))
  have hstale : ((serve (askFor (ascii "w")).1 (askFor (ascii "w")).2 [1]).bind
      fun effect => effect.1.2)
        = some (replyImage 0x7f00 5 2 (RsslMsg.tag (refreshResponse 5 1 (ascii "w") [1]))) := rfl
  have hfresh : ((serve (askFor (ascii "w")).1 (askFor (ascii "w")).2 []).bind
      fun effect => effect.1.2)
        = some (replyImage 0x7f00 5 1 (RsslMsg.tag (refreshResponse 5 1 (ascii "w") []))) := rfl
  refine ⟨p, hrun, hp, ?_⟩
  rw [reply_serve, reply_serve, last_dacsLock _ p hrun, hp, carriedLock_askFor, hstale,
    show (Worker.initial _).dacsLock = [] from rfl, hfresh]
  decide

end Replay

end Hitsuji
