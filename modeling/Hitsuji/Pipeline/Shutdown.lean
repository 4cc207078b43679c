import Hitsuji.Pipeline.Delivery
import Hitsuji.Pipeline.Reach

set_option autoImplicit false

/-! # Shutting down

`Close` does not notify its clients before their watchlists are empty, and selects on the reply
socket while it waits. But a token leaves its watchlist by more ways than an answer, and `Reset`
destroys the reply socket before it calls `Close`, with what is queued behind it. -/

namespace Hitsuji

open ByteBuffer Transition

namespace Pump

/-! ## Watchlists -/

/-- The watchlist of the client under a channel. -/
def watchlist (p : Pump) (k : UInt64) : Finset Int32 :=
  ((p.streamsOf k).map Streams.tokens).getD ∅

/-- Clients are stored under their own channels. -/
def Addressed (p : Pump) : Prop :=
  ∀ k s, p.streamsOf k = some s → s.handle = k

/-- The channel and token of the item request that a step accepts. -/
def acceptedKey (p : Pump) (op : Op) : Option (UInt64 × Int32) :=
  (p.message op).bind fun (k, m, env) =>
    (p.clients k).bind fun client => Call.acceptedKey client ⟨env, p.channels k, p.view, .msg m⟩

theorem isSome_streamsOf (p : Pump) (k : UInt64) :
    (p.streamsOf k).isSome = (p.clients k).isSome :=
  Option.isSome_map

theorem watchlist_stored (p : Pump) (k : UInt64) (client : Client)
    (hclient : p.clients k = some client) : p.watchlist k = client.tokens := by
  rw [watchlist, streamsOf, hclient]
  rfl

/-- No client, no watchlist. -/
theorem isSome_of_watched (p : Pump) (k : UInt64) (token : Int32) (h : token ∈ p.watchlist k) :
    (p.clients k).isSome = true := by
  cases hclient : p.clients k with
  | some client => rfl
  | none =>
      rw [watchlist, streamsOf, hclient] at h
      exact absurd h (Finset.notMem_empty token)

/-- Who keeps the streams keeps the watchlist. -/
theorem watchlist_kept (p p' : Pump) (hkept : p.StreamsKept p') (k : UInt64)
    (hclient : (p'.clients k).isSome = true) : p.watchlist k ⊆ p'.watchlist k := by
  intro token htoken
  rcases hkept k with hsame | hgone | ⟨hnew, -⟩
  · rw [watchlist, hsame]
    exact htoken
  · rw [← isSome_streamsOf, hgone] at hclient
    exact absurd hclient Bool.false_ne_true
  · rw [watchlist, hnew] at htoken
    exact absurd htoken (Finset.notMem_empty token)

theorem addressed_kept (p p' : Pump) (hkept : p.StreamsKept p') (hp : p.Addressed) :
    p'.Addressed := by
  intro k s hs
  rcases hkept k with hsame | hgone | ⟨-, s', hs', hhandle, -⟩
  · exact hp k s (hsame ▸ hs)
  · exact absurd (hgone.symm.trans hs) (by simp)
  · obtain rfl := Option.some.inj (hs'.symm.trans hs)
    exact hhandle

section Called

variable {p : Pump} {k : UInt64} {e : Call} {client : Client} {d : Done} {h : Handled}

/-- A method does to the watchlist what its action says. -/
theorem watchlist_called (hcalled : p.Called k e client d h) :
    h.pump.watchlist k = (client.streams.apply (e.action client)).tokens := by
  rw [watchlist, hcalled.streams, Function.update_self, Option.map_some, Option.getD_some,
    run_streams e client d hcalled.run]

theorem watchlist_called_of_ne (hcalled : p.Called k e client d h) (j : UInt64) (hj : j ≠ k) :
    h.pump.watchlist j = p.watchlist j := by
  rw [watchlist, hcalled.streams, Function.update_of_ne hj]
  rfl

theorem addressed_called (hcalled : p.Called k e client d h) (hp : p.Addressed) :
    h.pump.Addressed := by
  intro j s hs
  rw [hcalled.streams] at hs
  by_cases hj : j = k
  · subst hj
    rw [Function.update_self] at hs
    obtain rfl := Option.some.inj hs
    have hhandle : client.handle = j := by
      refine hp j client.streams ?_
      rw [streamsOf, hcalled.stored]
      rfl
    exact (run_handle e client d hcalled.run).trans hhandle
  · rw [Function.update_of_ne hj] at hs
    exact hp j s hs

/-- The requests a method passes on are those it accepts. -/
theorem asked_called (hcalled : p.Called k e client d h) :
    (askedOf h.calls).map ItemRequest.key = (Call.acceptedKey client e).toList := by
  rw [hcalled.asked]
  exact run_requests e client d hcalled.run

end Called

/-- Handling a message only takes a token off the watchlist that it closes. -/
theorem watchlist_message (p : Pump) (op : Op) (h : Handled) (k : UInt64) (m : InMsg) (env : Env)
    (client : Client) (d : Done) (hmessage : p.message op = some (k, m, env))
    (hcalled : p.Called k ⟨env, p.channels k, p.view, .msg m⟩ client d h) (token : Int32)
    (htoken : token ∈ client.tokens) (hopen : p.closesItem op ≠ some (k, token)) :
    token ∈ h.pump.watchlist k := by
  rw [watchlist_called hcalled]
  simp only [Call.action, Call.msgAction]
  split
  · split <;> exact htoken
  · split
    · exact Finset.mem_insert_of_mem htoken
    · exact htoken
  · split <;> exact htoken
  · next hclass hdomain =>
      split
      · refine Finset.mem_erase.mpr ⟨fun heq => hopen ?_, htoken⟩
        rw [closesItem, hmessage, Option.bind_some, heq]
        exact if_pos ⟨hclass, hdomain⟩
      · exact htoken
  · exact htoken

theorem addressed_reaches (p : Pump) (op : Op) (h : Handled) (hp : p.Addressed)
    (hreaches : p.Reaches op h) : h.pump.Addressed := by
  cases hreaches with
  | nobody _ _ hkept => exact addressed_kept p _ hkept hp
  | message _ _ k m env client d _ hcalled => exact addressed_called hcalled hp
  | reply env z msg left _ view client d _ _ _ hcalled => exact addressed_called hcalled hp
  | notify c env left loop leftByFlush _ client d hcalled => exact addressed_called hcalled hp

/-- A request that is passed on puts its token on the watchlist. -/
theorem asked_reaches (p : Pump) (op : Op) (h : Handled) (hp : p.Addressed)
    (hreaches : p.Reaches op h) (r : ItemRequest) (rest : List ItemRequest)
    (hasked : askedOf h.calls = r :: rest) :
    p.acceptedKey op = some r.key ∧ r.token ∉ p.watchlist r.handle
      ∧ r.token ∈ h.pump.watchlist r.handle := by
  have hnone : ∀ k client e d, p.Called k e client d h → Call.acceptedKey client e ≠ none := by
    intro k client e d hcalled hkey
    have hkeys := asked_called hcalled
    rw [hasked, hkey] at hkeys
    exact absurd hkeys (by simp)
  cases hreaches with
  | nobody _ _ _ hquiet => exact absurd (hquiet.symm.trans hasked) (by simp)
  | reply env z msg left _ view client d _ _ _ hcalled =>
      exact absurd rfl (hnone _ _ _ _ hcalled)
  | notify c env left loop leftByFlush _ client d hcalled =>
      exact absurd rfl (hnone _ _ _ _ hcalled)
  | message _ _ k m env client d hmessage hcalled =>
      have hkeys := asked_called hcalled
      rw [hasked] at hkeys
      have haccepted : p.acceptedKey op
          = Call.acceptedKey client ⟨env, p.channels k, p.view, .msg m⟩ := by
        simp only [acceptedKey, hmessage, Option.bind_some, hcalled.stored]
      cases hkey : Call.accepted client ⟨env, p.channels k, p.view, .msg m⟩ with
      | none => exact absurd (by rw [Call.acceptedKey, hkey]; rfl) (hnone _ _ _ _ hcalled)
      | some token =>
          simp only [Call.acceptedKey, hkey, Option.map_some, Option.toList_some, List.map_cons,
            List.cons.injEq] at hkeys
          obtain ⟨hhandle, htoken⟩ := Prod.mk.inj hkeys.1
          have hk : client.handle = k := by
            refine hp k client.streams ?_
            rw [streamsOf, hcalled.stored]
            rfl
          obtain ⟨hnew, htokens⟩ := tokens_of_accepted client d.session.client _ token
            ((next_eq_some _ _ _).mpr ⟨d, hcalled.run, rfl⟩) hkey
          rw [haccepted, Call.acceptedKey, hkey, Option.map_some, ← hkeys.1, hhandle, htoken, hk,
            watchlist_stored p k client hcalled.stored]
          refine ⟨rfl, hnew, ?_⟩
          rw [watchlist, hcalled.streams, Function.update_self, Option.map_some, Option.getD_some]
          change token ∈ d.session.client.tokens
          rw [htokens]
          exact Finset.mem_insert_self token client.tokens

/-! ### What `Close` waits for -/

/-- Without a listening socket there are no connections. -/
def Listening (p : Pump) : Prop :=
  p.rsslSock = none → p.connections = []

/-- What `Close` counts on when it counts tokens. -/
def Countable (p : Pump) : Prop :=
  p.Coherent ∧ p.Listening

theorem listening_exec (p : Pump) (op : Op) (h : Handled) (hp : p.Listening)
    (hrun : p.exec op = some h) : h.pump.Listening := by
  cases exec_cases p op h hrun with
  | serves _ _ hserves =>
      intro hsock
      rw [rsslSock_of_books hserves.books] at hsock
      rw [connections_of_books hserves.books]
      exact hp hsock
  | accepted a listening hlistening =>
      exact fun hsock => absurd (hlistening.symm.trans hsock) (by simp)
  | opened i c majorVersion minorVersion pingTimeout address directoryToken emplaced left q _ _ _ _
      hq =>
      subst hq
      cases emplaced <;> exact hp
  | reconnected i c newSocket left =>
      rw [leave_eq]
      exact hp
  | fellThrough i c ret left =>
      rw [leave_eq]
      exact hp
  | flushed i c left p' _ _ hflushes =>
      intro hsock
      rw [rsslSock_of_books hflushes.books] at hsock
      rw [connections_of_books hflushes.books]
      exact hp hsock
  | disconnected i c left hc =>
      rw [disconnect_eq]
      intro hsock
      rw [hp hsock] at hc
      exact absurd hc (by simp)
  | notified c env left leftByFlush loop h' p' _ hserves _ hflushes =>
      have hbooks := hflushes.books.trans hserves.books
      intro hsock
      rw [rsslSock_of_books hbooks] at hsock
      rw [connections_of_books hbooks]
      exact hp hsock
  | tornDown => exact fun _ => rfl
  | reset | downgraded | rejected | threw | closing => exact hp

theorem countable_init (m : Machine) (hm : m.init) : m.pump.Countable :=
  ⟨coherent_init m hm, fun _ => hm.2.1⟩

theorem countable_step (m m' : Machine) (op : Op) (hm : m.pump.Countable)
    (h : m.step op = some m') : m'.pump.Countable := by
  obtain ⟨handled, hexec, hpump, -⟩ := control_of_step m m' op h
  refine ⟨coherent_step m m' op hm.1 h, ?_⟩
  rw [hpump]
  exact listening_exec m.pump op handled hm.2 hexec

/-- `active_tokens` counts every watchlist. -/
theorem watchlist_of_drained (p : Pump) (hp : p.Countable) (htokens : p.activeTokens = 0)
    (k : UInt64) (token : Int32) : token ∉ p.watchlist k := by
  intro hmem
  obtain ⟨client, hclient⟩ := Option.isSome_iff_exists.mp (isSome_of_watched p k token hmem)
  have hkey : k ∈ p.keys := (hp.1.hasClient k).mp (by rw [hclient]; rfl)
  have hcard := List.sum_eq_zero_iff_forall_eq_nat.mp htokens _ (List.mem_map_of_mem hkey)
  rw [hclient, Option.map_some, Option.getD_some, Finset.card_eq_zero] at hcard
  rw [watchlist_stored p k client hclient, hcard] at hmem
  exact absurd hmem (Finset.notMem_empty token)

/-- When there is nothing to wait for, there are no clients. -/
theorem watchlist_of_skipped (p : Pump) (hp : p.Countable) (hskip : p.mustDrain = false)
    (k : UInt64) (token : Int32) : token ∉ p.watchlist k := by
  intro hmem
  have hkey : k ∈ p.keys := (hp.1.hasClient k).mp (isSome_of_watched p k token hmem)
  rw [mustDrain, Bool.and_eq_false_iff] at hskip
  rcases hskip with hsock | hempty
  · have hconnected := hp.1.connected k hkey
    rw [hp.2 (Option.not_isSome_iff_eq_none.mp (by simp [hsock]))] at hconnected
    exact absurd hconnected List.not_mem_nil
  · have hsessions : p.sessions = [] := by simpa using hempty
    rw [keys, hsessions] at hkey
    exact absurd hkey List.not_mem_nil

/-- A response handed over is one submitted. -/
theorem submittedOn_of_handsOver (k : UInt64) (token : Int32) (events : List Event)
    (h : HandsOver token events) : submittedOn k token (events.map (.session k)) = true := by
  obtain ⟨data, direct, rc, hmem, haccepted⟩ := h
  refine List.any_eq_true.mpr ⟨_, List.mem_map_of_mem hmem, ?_⟩
  simp [haccepted]

end Pump

/-- The step begins `Reset`. -/
def Act.resets : Act → Bool
  | .abortWorkers => true
  | _ => false

/-- It destroys the queues. -/
def Act.releases : Act → Bool
  | .releaseSockets => true
  | _ => false

/-- A worker sends a reply. -/
def Act.answers : Act → Bool
  | .worker _ _ _ => true
  | _ => false

/-- The client that `Close` notifies. -/
def Act.notifies : Act → Option UInt64
  | .pump (.notify c _ _ _ _) _ => some c
  | _ => none

/-! ## Messages in flight -/

/-- The reply that `OnRead` has in its hands. -/
def ReadPc.inHand : ReadPc → Option (Bytes × Ask)
  | .receiving => none
  | .replying msg ask | .rereading msg ask _ _ => some (msg, ask)

/-- The message is a worker's reply to the request. -/
def Ask.AnsweredBy (a : Ask) (msg : Bytes) : Prop :=
  ∃ rssl : RsslBuf, msg = replyImage a.request.handle a.request.token rssl.length rssl.payload

namespace Host

/-- The replies that were not delivered. -/
def answers (s : Host) : List (Bytes × Ask) :=
  s.replies ++ (s.reading.bind ReadPc.inHand).toList

/-- The requests whose reply is still to come. -/
def inFlight (s : Host) : List Ask :=
  (s.requests ++ s.answers).map Prod.snd

/-- The record fits the messages in flight and the watchlists. -/
structure Tracked (s : Host) : Prop where
  addressed : s.machine.pump.Addressed
  requests : ∀ msg a, (msg, a) ∈ s.requests → msg = requestImage a.request
  answers : ∀ msg a, (msg, a) ∈ s.answers → a.AnsweredBy msg
  /-- the token of a request that a client waits for is on the watchlist, -/
  watched : ∀ k, ∀ a ∈ s.owed k,
    a.request.handle = k ∧ a.request.token ∈ s.machine.pump.watchlist k
  /-- and what is in flight under its key is its own -/
  matched : ∀ k, ∀ a ∈ s.owed k, ∀ b ∈ s.inFlight, b.request.key = a.request.key → b = a

theorem mem_inFlight (s : Host) (a : Ask) :
    a ∈ s.inFlight ↔ (∃ msg, (msg, a) ∈ s.requests) ∨ ∃ msg, (msg, a) ∈ s.answers := by
  simp only [inFlight, List.mem_map, List.mem_append, Prod.exists, exists_eq_right, exists_or]

/-- Messages are delivered, answered or lost, and clients wait for less. -/
theorem tracked_of_subset (s s' : Host) (hs : s.Tracked)
    (haddressed : s'.machine.pump.Addressed) (hrequests : s'.requests ⊆ s.requests)
    (hanswers : ∀ msg a, (msg, a) ∈ s'.answers → (msg, a) ∈ s.answers
      ∨ (∃ req, (req, a) ∈ s.requests) ∧ a.AnsweredBy msg)
    (howed : ∀ k, s'.owed k ⊆ s.owed k)
    (hwatched : ∀ k, ∀ a ∈ s'.owed k, a.request.token ∈ s'.machine.pump.watchlist k) :
    s'.Tracked where
  addressed := haddressed
  requests msg a hmem := hs.requests msg a (hrequests hmem)
  answers msg a hmem := by
    rcases hanswers msg a hmem with hold | ⟨-, hnew⟩
    · exact hs.answers msg a hold
    · exact hnew
  watched k a ha := ⟨(hs.watched k a (howed k ha)).1, hwatched k a ha⟩
  matched k a ha b hb hkey := by
    refine hs.matched k a (howed k ha) b ((mem_inFlight s b).mpr ?_) hkey
    rcases (mem_inFlight s' b).mp hb with ⟨msg, hmsg⟩ | ⟨msg, hmsg⟩
    · exact .inl ⟨msg, hrequests hmsg⟩
    · rcases hanswers msg b hmsg with hold | ⟨hrequest, -⟩
      · exact .inr ⟨msg, hold⟩
      · exact .inl hrequest

/-- A step that leaves the provider and the clients' claims alone. -/
theorem tracked_beside (s s' : Host) (hs : s.Tracked) (hmachine : s'.machine = s.machine)
    (howed : s'.owed = s.owed) (hrequests : s'.requests ⊆ s.requests)
    (hanswers : ∀ msg a, (msg, a) ∈ s'.answers → (msg, a) ∈ s.answers
      ∨ (∃ req, (req, a) ∈ s.requests) ∧ a.AnsweredBy msg) : s'.Tracked := by
  refine tracked_of_subset s s' hs ?_ hrequests hanswers (fun k => ?_) fun k a ha => ?_
  · rw [hmachine]
    exact hs.addressed
  · rw [howed]
    exact fun _ ha => ha
  · rw [howed] at ha
    rw [hmachine]
    exact (hs.watched k a ha).2

/-! ## What a client still waits for -/

theorem mem_settle (s : Host) (op : Op) (ask : Option Ask) (h : Handled) (new : List Ask)
    (k : UInt64) (a : Ask) : a ∈ s.settle op ask h new k ↔
      (h.pump.clients k).isSome = true
        ∧ (a ∈ s.owed k ∧ s.machine.pump.closesItem op ≠ some (k, a.request.token)
            ∧ (ask = some a → submittedOn k a.request.token h.calls = false)
          ∨ a ∈ new ∧ a.request.handle = k) := by
  unfold settle
  split
  · next hclient =>
      simp [hclient, List.mem_append, List.mem_filter, imp_iff_not_or]
  · next hgone =>
      simp [hgone]

/-- The reply being read answers `ask`, and RSSL takes it if its token is on the watchlist. -/
def Delivers (s : Host) (op : Op) (ask : Option Ask) : Prop :=
  ∀ env z msg left view client, op = .reply env z msg left →
    s.machine.pump.replyReady = true → z.receives = true →
    decodeReply .lengthFirst msg = .ok view →
    s.machine.pump.clients view.handle = some client →
    ∃ a, ask = some a ∧ (msg, a) ∈ s.answers
      ∧ (view.token ∈ client.tokens → env.getBuffer = true ∧ env.writes.last.accepted = true)

/-- No request in flight has the key of a request that is accepted. -/
def AsksClear (s : Host) (op : Op) : Prop :=
  ∀ key, s.machine.pump.acceptedKey op = some key → ∀ b ∈ s.inFlight, b.request.key ≠ key

/-- A client that is notified waits for nothing. -/
def NotifiesServed (s : Host) (op : Op) : Prop :=
  ∀ c env left loop leftByFlush, op = .notify c env left loop leftByFlush → s.owed c = []

/-- A request that is still waited for after a step keeps its token on the watchlist. -/
theorem watched_settle (s : Host) (op : Op) (ask : Option Ask) (h : Handled) (hs : s.Tracked)
    (hdelivers : s.Delivers op ask) (hnotify : s.NotifiesServed op)
    (hreaches : s.machine.pump.Reaches op h) (k : UInt64) (a : Ask) (ha : a ∈ s.owed k)
    (hclient : (h.pump.clients k).isSome = true)
    (hopen : s.machine.pump.closesItem op ≠ some (k, a.request.token))
    (hwaits : ask = some a → submittedOn k a.request.token h.calls = false) :
    a.request.token ∈ h.pump.watchlist k := by
  obtain ⟨hhandle, htoken⟩ := hs.watched k a ha
  cases hreaches with
  | nobody _ _ hkept => exact Pump.watchlist_kept _ _ hkept k hclient htoken
  | message _ _ j m env client d hmessage hcalled =>
      by_cases hk : k = j
      · subst hk
        rw [Pump.watchlist_stored _ k client hcalled.stored] at htoken
        exact Pump.watchlist_message _ op h k m env client d hmessage hcalled _ htoken hopen
      · rw [Pump.watchlist_called_of_ne hcalled k hk]
        exact htoken
  | notify c env left loop leftByFlush _ client d hcalled =>
      by_cases hk : k = c
      · subst hk
        rw [hnotify k env left loop leftByFlush rfl] at ha
        exact absurd ha List.not_mem_nil
      · rw [Pump.watchlist_called_of_ne hcalled k hk]
        exact htoken
  | reply env z msg left _ view client d hready hreceives hview hcalled hcalls =>
      by_cases hk : k = view.handle
      · subst hk
        rw [Pump.watchlist_stored _ _ client hcalled.stored] at htoken
        rw [Pump.watchlist_called hcalled]
        refine Finset.mem_erase.mpr ⟨fun heq => ?_, htoken⟩
        obtain ⟨b, rfl, hb, htakes⟩ :=
          hdelivers env z msg left view client rfl hready hreceives hview hcalled.stored
        obtain ⟨rssl, rfl⟩ := hs.answers msg b hb
        rw [decodeReply_image] at hview
        obtain rfl := Except.ok.inj hview
        -- the reply is under the key of `a`, so it is the answer to `a`
        have hba : b = a := hs.matched _ a ha b ((mem_inFlight s b).mpr (.inr ⟨_, hb⟩))
          (Prod.ext hhandle.symm heq.symm)
        subst hba
        have hover := (handsOver_sendReply env _ _ _ d htoken hcalled.run).mpr (htakes htoken)
        rw [hcalls] at hwaits
        have hsubmitted := Pump.submittedOn_of_handsOver b.request.handle _ _ hover
        exact absurd (hsubmitted.symm.trans (hwaits rfl)) (by simp)
      · rw [Pump.watchlist_called_of_ne hcalled k hk]
        exact htoken

/-- A step of the provider that accepts no request: the clients wait for less. -/
theorem advance_quiet (s s' : Host) (op : Op) (mem : Nat → UInt8) (ask : Option Ask)
    (haddressed : s.machine.pump.Addressed) (h : s.advance op mem ask = some s')
    (hnone : s.machine.pump.acceptedKey op = none) (k : UInt64) : s'.owed k ⊆ s.owed k := by
  obtain ⟨handled, new, sent, hexec, -, -, hs', hsent⟩ := advance_spec s s' op mem ask h
  rcases hsent with ⟨-, rfl, -⟩ | ⟨r, rest, hasked, -⟩
  · intro a ha
    rw [hs'] at ha
    obtain ⟨-, ⟨hold, -⟩ | ⟨hnew, -⟩⟩ := (mem_settle s op ask handled [] k a).mp ha
    · exact hold
    · exact absurd hnew List.not_mem_nil
  · have hkey := (Pump.asked_reaches _ op handled haddressed (Pump.exec_reaches _ op handled hexec)
      r rest hasked).1
    exact absurd (hnone.symm.trans hkey) (by simp)

theorem tracked_advance (s s' : Host) (op : Op) (mem : Nat → UInt8) (ask : Option Ask)
    (hs : s.Tracked) (hclear : s.AsksClear op) (hdelivers : s.Delivers op ask)
    (hnotify : s.NotifiesServed op) (h : s.advance op mem ask = some s') : s'.Tracked := by
  obtain ⟨handled, new, sent, hexec, -, hpump, hs', hsent⟩ := advance_spec s s' op mem ask h
  have hreaches := Pump.exec_reaches _ op handled hexec
  have haddressed : s'.machine.pump.Addressed := by
    rw [hpump]
    exact Pump.addressed_reaches _ op handled hs.addressed hreaches
  have hanswers : s'.answers ⊆ s.answers := by
    intro x hx
    rw [hs'] at hx
    simp only [answers, Option.bind_none, Option.toList_none, List.append_nil] at hx
    exact List.mem_append_left _ hx
  have hsettled : ∀ k, s'.owed k = s.settle op ask handled new k := by
    intro k
    rw [hs']
  have hwaiting : ∀ k, ∀ a ∈ s'.owed k, a ∈ s.owed k ∨ a ∈ new ∧ a.request.handle = k := by
    intro k a ha
    rw [hsettled] at ha
    obtain ⟨-, ⟨hold, -⟩ | hnew⟩ := (mem_settle s op ask handled new k a).mp ha
    · exact .inl hold
    · exact .inr hnew
  have hwatched : ∀ k, ∀ a ∈ s'.owed k,
      a.request.handle = k ∧ a.request.token ∈ s'.machine.pump.watchlist k := by
    intro k a ha
    rw [hsettled] at ha
    rw [hpump]
    obtain ⟨hclient, ⟨hold, hopen, hwaits⟩ | ⟨hnew, rfl⟩⟩ :=
      (mem_settle s op ask handled new k a).mp ha
    · exact ⟨(hs.watched k a hold).1, watched_settle s op ask handled hs hdelivers hnotify hreaches
        k a hold hclient hopen hwaits⟩
    · rcases hsent with ⟨-, rfl, -⟩ | ⟨r, rest, hasked, rfl, -⟩
      · exact absurd hnew List.not_mem_nil
      · obtain rfl := List.mem_singleton.mp hnew
        exact ⟨rfl, (Pump.asked_reaches _ op handled hs.addressed hreaches r rest hasked).2.2⟩
  have hrequests : s'.requests = s.requests ++ sent := by
    rw [hs']
  rcases hsent with ⟨-, rfl, rfl⟩ | ⟨r, rest, hasked, rfl, hsent⟩
  · refine tracked_of_subset s s' hs haddressed ?_ (fun msg a ha => .inl (hanswers ha))
      (fun k a ha => ?_) fun k a ha => (hwatched k a ha).2
    · rw [hrequests, List.append_nil]
      exact fun _ hx => hx
    · exact (hwaiting k a ha).resolve_right fun hnew => absurd hnew.1 List.not_mem_nil
  · have hsent : ∀ x ∈ sent, x = (requestImage r, ⟨s.nextSeq, r⟩) := by
      intro x hx
      rcases hsent with rfl | ⟨-, rfl⟩
      · exact absurd hx List.not_mem_nil
      · exact List.mem_singleton.mp hx
    obtain ⟨hkey, hfresh, -⟩ :=
      Pump.asked_reaches _ op handled hs.addressed hreaches r rest hasked
    have hflying : ∀ b ∈ s'.inFlight, b ∈ s.inFlight ∨ b = ⟨s.nextSeq, r⟩ := by
      intro b hb
      rcases (mem_inFlight s' b).mp hb with ⟨msg, hmsg⟩ | ⟨msg, hmsg⟩
      · rw [hrequests] at hmsg
        rcases List.mem_append.mp hmsg with hold | hnew
        · exact .inl ((mem_inFlight s b).mpr (.inl ⟨msg, hold⟩))
        · exact .inr (Prod.mk.inj (hsent _ hnew)).2
      · exact .inl ((mem_inFlight s b).mpr (.inr ⟨msg, hanswers hmsg⟩))
    refine ⟨haddressed, fun msg a hmem => ?_, fun msg a hmem => hs.answers msg a (hanswers hmem),
      hwatched, fun k a ha b hb hab => ?_⟩
    · rw [hrequests] at hmem
      rcases List.mem_append.mp hmem with hold | hnew
      · exact hs.requests msg a hold
      · obtain ⟨rfl, rfl⟩ := Prod.mk.inj (hsent _ hnew)
        rfl
    · rcases hwaiting k a ha with hold | ⟨hnew, -⟩
      · rcases hflying b hb with hold' | rfl
        · exact hs.matched k a hold b hold' hab
        · -- the token of `a` is on the watchlist, that of the new request was not
          obtain ⟨hhandle, htoken⟩ := hs.watched k a hold
          obtain ⟨hrhandle, hrtoken⟩ := Prod.mk.inj hab
          rw [← hhandle, ← hrhandle, ← hrtoken] at htoken
          exact absurd htoken hfresh
      · obtain rfl := List.mem_singleton.mp hnew
        rcases hflying b hb with hold' | rfl
        · exact absurd hab (hclear _ hkey b hold')
        · rfl

/-! ## What every step keeps -/

/-- What keeps the promise of `Close`. -/
structure Served (s : Host) : Prop extends Tracked s where
  /-- `Close` has waited, -/
  closing : ∀ todo, s.machine.pc = .notifying todo → ∀ k, s.owed k = []
  /-- `OnRead` is part of a pass, -/
  calls : s.reading.isSome = true → ∃ k, s.machine.pc = .external k
  /-- and while the workers end, nothing else happens -/
  resting : s.phase = .aborting ∨ s.phase = .joined →
    s.replies = [] ∧ s.reading = none ∧ (s.machine.pc = .ready ∨ s.machine.pc = .stopped)

/-- While the workers end, the provider does not move. -/
theorem rests (s s' : Host) (op : Op) (mem : Nat → UInt8) (ask : Option Ask) (hs : s.Served)
    (hphase : s.phase = .aborting ∨ s.phase = .joined) (hstart : op = .start → s.phase = .running)
    (hclose : op = .close → s.phase = .released) (h : s.advance op mem ask = some s') : False := by
  obtain ⟨-, -, hpc⟩ := hs.resting hphase
  obtain ⟨-, -, -, -, hstep, -⟩ := advance_spec s s' op mem ask h
  obtain ⟨-, -, -, hflow⟩ := control_of_step _ _ op hstep
  generalize hpc' : s'.machine.pc = pc' at hflow
  rcases hpc with hpc | hpc
  · rw [hpc] at hflow
    cases hflow with
    | start =>
        rw [hstart rfl] at hphase
        exact absurd hphase (by simp)
    | close =>
        rw [hclose rfl] at hphase
        exact absurd hphase (by simp)
    | throw _ hpumping => exact absurd hpumping (by simp [Pc.pumping])
  · rw [hpc] at hflow
    cases hflow with
    | close =>
        rw [hclose rfl] at hphase
        exact absurd hphase (by simp)
    | throw _ hpumping => exact absurd hpumping (by simp [Pc.pumping])

theorem served_advance (s s' : Host) (op : Op) (mem : Nat → UInt8) (ask : Option Ask)
    (hcount : s.machine.pump.Countable) (hs : s.Served) (hclear : s.AsksClear op)
    (hdelivers : s.Delivers op ask)
    (hstart : op = .start → s.phase = .running) (hclose : op = .close → s.phase = .released)
    (h : s.advance op mem ask = some s') : s'.Served := by
  obtain ⟨_, _, _, -, hstep, -, hs', -⟩ := advance_spec s s' op mem ask h
  obtain ⟨handled, hexec, hpump, hflow⟩ := control_of_step _ _ op hstep
  have hnotify : s.NotifiesServed op := by
    rintro c env left loop leftByFlush rfl
    obtain ⟨todo, hpc⟩ := flow_notify _ _ _ c env left loop leftByFlush hflow
    exact hs.closing todo hpc c
  have htracked := tracked_advance s s' op mem ask hs.toTracked hclear hdelivers hnotify h
  have hempty : (∀ k token, token ∉ s'.machine.pump.watchlist k) → ∀ k, s'.owed k = [] :=
    fun hnone k => List.eq_nil_iff_forall_not_mem.mpr fun a ha =>
      hnone k a.request.token (htracked.watched k a ha).2
  refine ⟨htracked, fun todo hpc => ?_, fun hsome => ?_, fun hphase => ?_⟩
  · rw [hpc] at hflow
    generalize hpc' : s.machine.pc = pc at hflow
    cases hflow with
    | drained idle stage i didWork quit htokens =>
        obtain rfl := Option.some.inj hexec
        refine hempty fun k token => ?_
        rw [hpump]
        exact Pump.watchlist_of_drained _ hcount htokens k token
    | skip hskip =>
        simp only [Pump.exec, hskip] at hexec
        obtain rfl := Option.some.inj hexec
        refine hempty fun k token => ?_
        rw [hpump]
        exact Pump.watchlist_of_skipped _ hcount hskip k token
    | notify rest c env left loop leftByFlush =>
        intro k
        have hfewer := advance_quiet s s' _ mem ask hs.addressed h rfl k
        rw [hs.closing rest hpc' k] at hfewer
        exact List.subset_nil.mp hfewer
  · rw [hs'] at hsome
    exact absurd hsome Bool.false_ne_true
  · rw [hs'] at hphase
    exact absurd (rests s s' op mem ask hs hphase hstart hclose h) id

/-- A step that leaves the provider and the clients' claims alone. -/
theorem served_beside (s s' : Host) (hs : s.Served) (hmachine : s'.machine = s.machine)
    (howed : s'.owed = s.owed) (hrequests : s'.requests ⊆ s.requests)
    (hanswers : ∀ msg a, (msg, a) ∈ s'.answers → (msg, a) ∈ s.answers
      ∨ (∃ req, (req, a) ∈ s.requests) ∧ a.AnsweredBy msg)
    (hcalls : s'.reading.isSome = true → ∃ k, s.machine.pc = .external k)
    (hresting : s'.phase = .aborting ∨ s'.phase = .joined →
      s'.replies = [] ∧ s'.reading = none ∧ (s.machine.pc = .ready ∨ s.machine.pc = .stopped)) :
    s'.Served where
  toTracked := tracked_beside s s' hs.toTracked hmachine howed hrequests hanswers
  closing todo hpc k := by
    rw [hmachine] at hpc
    rw [howed]
    exact hs.closing todo hpc k
  calls hsome := by
    rw [hmachine]
    exact hcalls hsome
  resting hphase := by
    rw [hmachine]
    exact hresting hphase

/-! ## The condition -/

/-- The channel and token of the item request that a step accepts. -/
def acceptedKey (s : Host) : Act → Option (UInt64 × Int32)
  | .pump op _ => s.machine.pump.acceptedKey op
  | _ => none

/-- The request whose reply a step delivers, and the surroundings of `SendReply`. -/
def delivering (s : Host) : Act → Option (Ask × Env)
  | .onReply env _ _ =>
      match s.reading with
      | some (.replying _ ask) => some (ask, env)
      | _ => none
  | .eventsAgain _ =>
      match s.reading with
      | some (.rereading _ ask env _) => some (ask, env)
      | _ => none
  | _ => none

/-- Every request is answered in time: -/
structure AnswersInTime (s : Host) (a : Act) : Prop where
  /-- no request is accepted under a key for which a reply is still to come, -/
  clear : ∀ key ∈ s.acceptedKey a, ∀ b ∈ s.inFlight, b.request.key ≠ key
  /-- RSSL has a buffer for each reply whose token is on the watchlist, and accepts it, -/
  takes : ∀ x ∈ s.delivering a,
    x.1.request.token ∈ s.machine.pump.watchlist x.1.request.handle →
    x.2.getBuffer = true ∧ x.2.writes.last.accepted = true
  /-- all replies are read when `Reset` begins, -/
  read : a.resets = true → s.replies = []
  /-- and no worker replies after that -/
  ends : s.phase = .aborting → a.answers = false

instance (s : Host) (a : Act) : Decidable (s.AnswersInTime a) :=
  decidable_of_iff ((∀ key ∈ s.acceptedKey a, ∀ b ∈ s.inFlight, b.request.key ≠ key)
    ∧ (∀ x ∈ s.delivering a, x.1.request.token ∈ s.machine.pump.watchlist x.1.request.handle →
      x.2.getBuffer = true ∧ x.2.writes.last.accepted = true)
    ∧ (a.resets = true → s.replies = []) ∧ (s.phase = .aborting → a.answers = false))
    ⟨fun h => ⟨h.1, h.2.1, h.2.2.1, h.2.2.2⟩, fun h => ⟨h.clear, h.takes, h.read, h.ends⟩⟩

/-- `Reset` discards no reply, and `Close` notifies clients that wait for none. -/
structure EndsGracefully (s : Host) (a : Act) : Prop where
  pumped : a.releases = true → s.replies = []
  answered : ∀ c ∈ a.notifies, s.owed c = []

instance (s : Host) (a : Act) : Decidable (s.EndsGracefully a) :=
  decidable_of_iff ((a.releases = true → s.replies = []) ∧ ∀ c ∈ a.notifies, s.owed c = [])
    ⟨fun h => ⟨h.1, h.2⟩, fun h => ⟨h.pumped, h.answered⟩⟩

theorem asksClear_reply (s : Host) (env : Env) (z : ReadEnv) (msg : Bytes) (left : Option Down) :
    s.AsksClear (.reply env z msg left) :=
  fun _ hkey => nomatch hkey

/-- Nothing is delivered when nothing is received. -/
theorem delivers_nothing (s : Host) (events : Option Bool) (msgInit msgRecv : Bool)
    (h : (decide (events = some true) && msgInit && msgRecv) = false) :
    s.Delivers (.readsNothing events msgInit msgRecv) none := by
  rintro env z msg left view client hop - hreceives - -
  obtain ⟨-, rfl, -, -⟩ := Op.reply.inj hop
  exact absurd (hreceives.symm.trans h) (by simp)

/-- What is delivered is the answer to the request it is recorded for. -/
theorem delivers_reply (s : Host) (hs : s.Tracked) (env : Env) (z : ReadEnv) (msg : Bytes)
    (left : Option Down) (ask : Ask) (hmem : (msg, ask) ∈ s.answers)
    (htakes : ask.request.token ∈ s.machine.pump.watchlist ask.request.handle →
      env.getBuffer = true ∧ env.writes.last.accepted = true) :
    s.Delivers (.reply env z msg left) (some ask) := by
  rintro env' z' msg' left' view client hop - - hview hclient
  obtain ⟨rfl, -, rfl, -⟩ := Op.reply.inj hop
  obtain ⟨rssl, rfl⟩ := hs.answers msg ask hmem
  rw [decodeReply_image] at hview
  obtain rfl := Except.ok.inj hview
  refine ⟨ask, rfl, hmem, fun htoken => htakes ?_⟩
  rw [Pump.watchlist_stored _ _ client hclient]
  exact htoken

/-! ## Steps -/

theorem inHand_replying (s : Host) (msg : Bytes) (ask : Ask)
    (h : s.reading.bind ReadPc.inHand = some (msg, ask)) : (msg, ask) ∈ s.answers := by
  rw [answers, h]
  exact List.mem_append_right _ (List.mem_singleton_self _)

theorem served_pump (s s' : Host) (op : Op) (mem : Nat → UInt8)
    (hcount : s.machine.pump.Countable) (hs : s.Served) (hadmits : s.admits op = true)
    (hclear : s.AsksClear op) (h : s.advance op mem none = some s') : s'.Served := by
  obtain ⟨_, _, _, -, hstep, -⟩ := advance_spec s s' op mem none h
  obtain ⟨-, -, -, hflow⟩ := control_of_step _ _ op hstep
  refine served_advance s s' op mem none hcount hs hclear ?_ ?_ ?_ h
  · -- `OnRead` was not called, so the reply socket was not ready
    rintro env z msg left view client rfl hready - - -
    obtain ⟨k, hpc, -⟩ := flow_reply _ _ _ env z msg left hflow
    simp [admits, callsOnRead, hpc, hready] at hadmits
  · rintro rfl
    simp only [admits, Bool.and_eq_true, decide_eq_true_eq] at hadmits
    exact hadmits.2
  · rintro rfl
    simp only [admits, Bool.and_eq_true, decide_eq_true_eq] at hadmits
    exact hadmits.2

/-- `OnRead` returns. -/
theorem served_return (s s' : Host) (env : Env) (z : ReadEnv) (msg : Bytes) (left : Option Down)
    (ask : Option Ask) (hcount : s.machine.pump.Countable) (hs : s.Served)
    (hdelivers : s.Delivers (.reply env z msg left) ask)
    (h : s.advance (.reply env z msg left) (fun _ => 0) ask = some s') : s'.Served :=
  served_advance s s' _ _ ask hcount hs (asksClear_reply s env z msg left) hdelivers nofun nofun h

/-- `OnRead` goes on. -/
theorem served_read (s s' : Host) (hs : s.Served) (hcalls : ∃ k, s.machine.pc = .external k)
    (hmachine : s'.machine = s.machine) (howed : s'.owed = s.owed)
    (hrequests : s'.requests = s.requests) (hphase : s'.phase = s.phase)
    (hanswers : s'.answers ⊆ s.answers) : s'.Served := by
  refine served_beside s s' hs hmachine howed (by rw [hrequests]; exact fun _ hx => hx)
    (fun _ _ hx => .inl (hanswers hx)) (fun _ => hcalls) fun hends => ?_
  obtain ⟨k, hpc⟩ := hcalls
  rw [hphase] at hends
  obtain ⟨-, -, hrests⟩ := hs.resting hends
  rw [hpc] at hrests
  exact absurd hrests (by simp)

theorem served_step (s s' : Host) (a : Act) (hcount : s.machine.pump.Countable) (hs : s.Served)
    (hintime : s.AnswersInTime a)
    (h : s.step a = some s') : s'.Served := by
  cases a with
  | pump op mem =>
      obtain ⟨hadmits, h⟩ := Option.ite_none_right_eq_some.mp h
      exact served_pump s s' op mem hcount hs hadmits hintime.clear h
  | events ok =>
      obtain ⟨⟨hcalls, hnone⟩, h⟩ := Option.ite_none_right_eq_some.mp h
      have hnone := Option.isNone_iff_eq_none.mp hnone
      split at h
      · have hsame : ({ s with signalled := false } : Host).Served :=
          served_beside s _ hs rfl rfl (fun _ hx => hx) (fun _ _ hx => .inl hx) hs.calls hs.resting
        simp only at h
        split at h
        · exact served_return { s with signalled := false } s' _ _ _ _ none hcount hsame
            (delivers_nothing _ _ _ _ rfl) h
        · obtain rfl := Option.some.inj h
          obtain ⟨k, hpc, -⟩ := s.callsOnRead_eq hcalls
          refine served_read s _ hs ⟨k, hpc⟩ rfl rfl rfl rfl ?_
          simp only [answers, hnone]
          exact fun _ hx => hx
      · exact served_return s s' _ _ _ _ none hcount hs (delivers_nothing s _ _ _ rfl) h
  | receive i msgInit msgRecv =>
      simp only [step] at h
      split at h
      · next msg ask hreading hget =>
          split at h
          · obtain rfl := Option.some.inj h
            refine served_read s _ hs (hs.calls (by rw [hreading]; rfl)) rfl rfl rfl rfl ?_
            simp only [answers, hreading]
            intro x hx
            rcases List.mem_append.mp hx with hold | htaken
            · exact List.mem_append_left _ (List.eraseIdx_subset hold)
            · obtain rfl := List.mem_singleton.mp htaken
              exact List.mem_append_left _ (List.mem_of_getElem? hget)
          · next hfails =>
              refine served_return s s' _ _ _ _ none hcount hs (delivers_nothing s _ _ _ ?_) h
              simpa using hfails
      · exact absurd h (by simp)
  | onReply env left msgClose =>
      simp only [step] at h
      split at h
      · next msg ask hreading =>
          obtain ⟨answer, -, h⟩ := Option.bind_eq_some_iff.mp h
          have hmem : (msg, ask) ∈ s.answers := inHand_replying s msg ask (by rw [hreading]; rfl)
          split at h
          · obtain rfl := Option.some.inj h
            refine served_read s _ hs (hs.calls (by rw [hreading]; rfl)) rfl rfl rfl rfl ?_
            simp only [answers, hreading]
            exact fun _ hx => hx
          · refine served_return s s' _ _ _ _ _ hcount hs (delivers_reply s hs.toTracked env _ msg
              left ask hmem (hintime.takes (ask, env) ?_)) h
            simp only [delivering, hreading, Option.mem_def]
      · exact absurd h (by simp)
  | eventsAgain ok =>
      simp only [step] at h
      split at h
      · next msg ask env left hreading =>
          have hsame : ({ s with signalled := !ok && s.signalled } : Host).Served :=
            served_beside s _ hs rfl rfl (fun _ hx => hx) (fun _ _ hx => .inl hx) hs.calls
              hs.resting
          have hmem : (msg, ask) ∈ s.answers := inHand_replying s msg ask (by rw [hreading]; rfl)
          refine served_return { s with signalled := !ok && s.signalled } s' _ _ _ _ _ hcount hsame
            (delivers_reply _ hsame.toTracked env _ msg left ask hmem
              (hintime.takes (ask, env) ?_)) h
          simp only [delivering, hreading, Option.mem_def]
      · exact absurd h (by simp)
  | worker i mem rssl =>
      obtain ⟨hphase, h⟩ := Option.ite_none_right_eq_some.mp h
      obtain ⟨⟨msg, ask⟩, hget, h⟩ := Option.bind_eq_some_iff.mp h
      obtain ⟨answer, hanswer, rfl⟩ := Option.map_eq_some_iff.mp h
      have hmem := List.mem_of_getElem? hget
      refine served_beside s _ hs rfl rfl List.eraseIdx_subset (fun msg' b hb => ?_) hs.calls
        fun hends => ?_
      · simp only [answers, List.mem_append, List.mem_singleton] at hb ⊢
        rcases hb with (hold | hnew) | hread
        · exact .inl (.inl hold)
        · obtain ⟨rfl, rfl⟩ := Prod.mk.inj hnew
          rw [hs.requests msg b hmem, Server.workerReply_image] at hanswer
          exact .inr ⟨⟨msg, hmem⟩, rssl, (Option.some.inj hanswer).symm⟩
        · exact .inl (.inr hread)
      · rcases hends with haborting | hjoined
        · exact absurd (hintime.ends haborting) (by simp [Act.answers])
        · have hjoined : s.phase = .joined := hjoined
          rw [hjoined] at hphase
          exact absurd hphase (by simp)
  | workerStops i =>
      obtain rfl := Option.some.inj h
      exact served_beside s _ hs rfl rfl List.eraseIdx_subset (fun _ _ hx => .inl hx) hs.calls
        hs.resting
  | abortWorkers =>
      obtain ⟨⟨-, hpc⟩, h⟩ := Option.ite_none_right_eq_some.mp h
      obtain rfl := Option.some.inj h
      refine served_beside s _ hs rfl rfl (fun _ hx => hx) (fun _ _ hx => .inl hx) hs.calls fun _ =>
        ⟨hintime.read rfl, Option.not_isSome_iff_eq_none.mp fun hsome => ?_, hpc⟩
      obtain ⟨k, hexternal⟩ := hs.calls hsome
      rw [hexternal] at hpc
      exact absurd hpc (by simp)
  | joinWorkers =>
      obtain ⟨⟨haborting, -⟩, h⟩ := Option.ite_none_right_eq_some.mp h
      obtain rfl := Option.some.inj h
      exact served_beside s _ hs rfl rfl (fun _ hx => hx) (fun _ _ hx => .inl hx) hs.calls fun _ =>
        hs.resting (.inl haborting)
  | releaseSockets =>
      obtain ⟨-, h⟩ := Option.ite_none_right_eq_some.mp h
      obtain rfl := Option.some.inj h
      refine served_beside s _ hs rfl rfl (fun _ hx => hx)
        (fun _ _ hx => .inl (List.mem_append_right _ hx)) hs.calls fun hends => ?_
      exact absurd hends (by simp)

/-- A client is notified when `Close` has waited. -/
theorem notifying_of_notifies (s s' : Host) (a : Act) (c : UInt64) (hc : c ∈ a.notifies)
    (h : s.step a = some s') : ∃ todo, s.machine.pc = .notifying todo := by
  unfold Act.notifies at hc
  split at hc
  · obtain ⟨-, h⟩ := Option.ite_none_right_eq_some.mp h
    obtain ⟨_, _, _, -, hstep, -⟩ := advance_spec s s' _ _ none h
    obtain ⟨-, -, -, hflow⟩ := control_of_step _ _ _ hstep
    exact flow_notify _ _ _ _ _ _ _ _ hflow
  · exact absurd hc (by simp)

/-- What is kept makes the step graceful. -/
theorem endsGracefully_of_served (s s' : Host) (a : Act) (hs : s.Served) (h : s.step a = some s') :
    s.EndsGracefully a where
  pumped hreleases := by
    unfold Act.releases at hreleases
    split at hreleases
    · obtain ⟨hjoined, -⟩ := Option.ite_none_right_eq_some.mp h
      exact (hs.resting (.inr hjoined)).1
    · exact absurd hreleases Bool.false_ne_true
  answered c hc := by
    obtain ⟨todo, hpc⟩ := s.notifying_of_notifies s' a c hc h
    exact hs.closing todo hpc c

theorem served_init (s : Host) (hs : s.Initial) : s.Served := by
  obtain ⟨hmachine, hrequests, hreplies, hreading, hrunning, howed⟩ := hs
  have hanswers : s.answers = [] := by
    rw [answers, hreplies, hreading]
    rfl
  refine ⟨⟨fun k t ht => ?_, fun msg a hmem => ?_, fun msg a hmem => ?_, fun k a ha => ?_,
    fun k a ha => ?_⟩, fun todo hpc => ?_, fun hsome => ?_, fun hends => ?_⟩
  · rw [Pump.streamsOf_none _ k (hmachine.2.2.2.1 k)] at ht
    exact absurd ht (by simp)
  · rw [hrequests] at hmem
    exact absurd hmem List.not_mem_nil
  · rw [hanswers] at hmem
    exact absurd hmem List.not_mem_nil
  · rw [howed] at ha
    exact absurd ha List.not_mem_nil
  · rw [howed] at ha
    exact absurd ha List.not_mem_nil
  · exact absurd (hmachine.1.symm.trans hpc) (by simp)
  · rw [hreading] at hsome
    exact absurd hsome Bool.false_ne_true
  · rw [hrunning] at hends
    exact absurd hends (by simp)

end Host

/-- **The application ends gracefully in every run in which requests are answered in time**:
    `Reset` discards no reply, and a client that `Close` notifies was sent the reply to each request
    accepted from it that it did not close. -/
theorem shutdown_graceful (s₀ : Host) (p : Steps Host Act) (hrun : hostSystem.Run s₀ p)
    (hintime : Along (fun s a _ => s.AnswersInTime a) s₀ p) :
    Along (fun s a _ => s.EndsGracefully a) s₀ p := by
  -- the provider inside keeps its books whatever the application does
  have hcount := along_simulates hostSystem pumpSystem Host.machine (fun m => m.pump.Countable)
    host_simulates Pump.countable_init (fun m op m' hm h => Pump.countable_step m m' op hm h)
    s₀ p hrun
  let taken : Host → Act → Host → Prop := fun s a s' =>
    (s.machine.pump.Countable ∧ s.step a = some s') ∧ s.AnswersInTime a
  have hall : Along taken s₀ p :=
    (along_and _ _ s₀ p).mpr ⟨along_imp _ _ (fun _ _ _ h => ⟨h.1, h.2.1⟩) s₀ p hcount, hintime⟩
  have hinv := along_invariant taken Host.Served
    (fun s a s' hs h => Host.served_step s s' a h.1.1 hs h.2 h.1.2)
    s₀ p (s₀.served_init hrun.1) hall
  refine along_imp _ _ (fun s a s' h => ?_) s₀ p ((along_and _ _ s₀ p).mpr ⟨hinv.1, hrun.2⟩)
  exact s.endsGracefully_of_served s' a h.1.1 h.2

namespace Host

/-- `Run` ends, and `Reset` gets as far as `Close`. -/
def quits : List Act :=
  pumps [.select 0 ∅ ∅ ∅, .doWork 6, .keepalive 0 .success none, .disconnect 0 .closed,
      .returns true]
    ++ [.abortWorkers, .joinWorkers, .releaseSockets]

/-- `Close` with the consumer connected. -/
def closes : List Act :=
  pumps [.close, .directoryUpdate 0x7f00 willingEnv none, .drain, .doWork 7,
    .keepalive 0 .success none, .disconnect 0 .closed, .returns false,
    .notify 0x7f00 willingEnv none ⟨0, true⟩ none, .teardown fun _ => .closed]

/-- The answer is read before `Run` ends. -/
def answeredAndClosed : List Act :=
  consumerAsks [5] ++ [.worker 0 (fun _ => 0) Server.emptyReply] ++ pumps [.select 1 {4} ∅ ∅]
    ++ passReading [.events true, .receive 0 true true, .onReply willingEnv none true,
      .eventsAgain true] (visit 0 .nothing)
    ++ pumps (passOver 5 none (visit 0 .nothing)) ++ quits ++ closes

/-- The answer is in the queue when `Run` ends. -/
def quitsBeforeReading : List Act :=
  consumerAsks [5] ++ [.worker 0 (fun _ => 0) Server.emptyReply] ++ quits

end Host

section Replay

set_option maxRecDepth 40000

theorem answeredAndClosed_graceful :
    ∃ p, replay Host.step Host.bound Host.answeredAndClosed = some p
      ∧ Along (fun s a _ => s.EndsGracefully a) Host.bound p := by
  refine ⟨_, rfl, shutdown_graceful Host.bound _
    (run_replay _ Host.step Host.bound Host.answeredAndClosed _ Host.bound_init rfl) ?_⟩
  decide +kernel

/-- The reply is discarded while the consumer still waits for it. -/
theorem quitsBeforeReading_discards :
    ∃ p, hostSystem.Run Host.bound p
      ∧ replay Host.step Host.bound Host.quitsBeforeReading = some p
      ∧ ¬ Along (fun s a _ => s.EndsGracefully a) Host.bound p
      ∧ (last Host.bound p).owed 0x7f00 ≠ [] := by
  refine ⟨_, run_replay _ Host.step Host.bound Host.quitsBeforeReading _ Host.bound_init rfl, rfl,
    ?_, ?_⟩
  · decide +kernel
  · decide +kernel

end Replay

end Hitsuji
