import Hitsuji.Client.Ownership
import Hitsuji.Client.Streams

set_option autoImplicit false

/-! # The service name of a directory request

`OnDirectoryRequest` hands the name of a message key on as a `const char*`, and
`GetServiceDirectory` compares it with `strcmp`. Wherever the name has no NUL of its own and all of
it matches, what the memory holds behind it is compared as well. -/

namespace Hitsuji

open ByteBuffer

/-! ## Comparing up to the NUL -/

/-- The characters that `c_str` shows. -/
def untilNul (s : Bytes) : Bytes :=
  s.takeWhile (· ≠ 0)

/-- The first bytes of a name in memory: its own, then what follows them. -/
theorem map_nameData (k : InKey) (n : Nat) :
    (List.range n).map k.nameData
      = k.name.take n ++ (List.range (n - k.name.length)).map k.nameTail := by
  have hown : ∀ n ≤ k.name.length, (List.range n).map k.nameData = k.name.take n := by
    intro n hn
    refine List.ext_getElem (by simp [hn]) fun i hi _ => ?_
    have hin : i < k.name.length := by
      simp only [List.length_map, List.length_range] at hi
      omega
    simp [InKey.nameData, hin]
  by_cases hn : n ≤ k.name.length
  · rw [hown n hn, Nat.sub_eq_zero_of_le hn]
    simp
  · obtain ⟨m, rfl⟩ := Nat.exists_eq_add_of_le (Nat.le_of_not_le hn)
    have hbehind : ∀ i, k.nameData (k.name.length + i) = k.nameTail i := by
      simp [InKey.nameData]
    rw [List.range_add, List.map_append, hown _ (Nat.le_refl _), List.map_map,
      Nat.add_sub_cancel_left, List.take_of_length_le (Nat.le_add_right _ _),
      List.take_of_length_le (Nat.le_refl _)]
    exact congrArg (k.name ++ ·) (List.map_congr_left fun i _ => hbehind i)

theorem strcmpEq_nameData (k : InKey) (s : Bytes) :
    strcmpEq k.nameData s = true ↔
      k.name.take ((untilNul s).length + 1)
          ++ (List.range ((untilNul s).length + 1 - k.name.length)).map k.nameTail
        = untilNul s ++ [0] := by
  rw [← map_nameData]
  exact decide_eq_true_iff

/-- A name that is not the beginning of the service name is compared by its own bytes. -/
theorem strcmpEq_tail (k : InKey) (s : Bytes) (tail : CString) (h : ¬ k.name <+: untilNul s) :
    strcmpEq { k with nameTail := tail }.nameData s = strcmpEq k.nameData s := by
  rw [Bool.eq_iff_iff, strcmpEq_nameData, strcmpEq_nameData]
  by_cases hlen : k.name.length ≤ (untilNul s).length
  · have hshort : ∀ rest : Bytes, k.name.take ((untilNul s).length + 1) ++ rest
        ≠ untilNul s ++ [0] := by
      intro rest heq
      rw [List.take_of_length_le (by omega)] at heq
      exact h (List.prefix_of_prefix_length_le ⟨rest, heq⟩ (List.prefix_append _ _) hlen)
    exact iff_of_false (hshort _) (hshort _)
  · have hlong : (untilNul s).length + 1 - k.name.length = 0 := by omega
    simp only [hlong, List.range_zero, List.map_nil]

/-- One that is matches or does not, as the bytes behind it are. -/
theorem strcmpEq_prefix (k : InKey) (s : Bytes) (h : k.name <+: untilNul s) :
    (∃ tail, strcmpEq { k with nameTail := tail }.nameData s = true)
      ∧ ∃ tail, strcmpEq { k with nameTail := tail }.nameData s = false := by
  obtain ⟨rest, hrest⟩ := h
  have hlen : (untilNul s).length = k.name.length + rest.length := by
    rw [← hrest, List.length_append]
  have htake : k.name.take ((untilNul s).length + 1) = k.name :=
    List.take_of_length_le (by omega)
  constructor
  · refine ⟨cStr rest, ?_⟩
    rw [strcmpEq_nameData]
    dsimp only
    rw [htake, ← hrest, List.append_assoc]
    refine congrArg (k.name ++ ·) (List.ext_getElem (by simp; omega) fun i hi hi' => ?_)
    simp only [List.length_append, List.length_cons, List.length_nil] at hi'
    by_cases hin : i < rest.length
    · simp [cStr, hin]
    · obtain rfl : i = rest.length := by omega
      simp [cStr]
  · refine ⟨fun _ => 1, Bool.eq_false_iff.mpr fun htrue => ?_⟩
    rw [strcmpEq_nameData] at htrue
    dsimp only at htrue
    have hlast := congrArg List.getLast? htrue
    rw [show (untilNul s).length + 1 - k.name.length = rest.length + 1 by omega,
      List.range_succ, List.map_append, ← List.append_assoc, List.map_singleton,
      List.getLast?_concat, List.getLast?_concat] at hlast
    exact absurd hlast (by decide)

/-- A text that is more than what `c_str` shows of it goes on with a NUL. -/
theorem untilNul_split (s : Bytes) (h : ¬ s <+: untilNul s) :
    ∃ rest, s = untilNul s ++ [0] ++ rest := by
  have hsplit : untilNul s ++ s.dropWhile (· ≠ 0) = s := List.takeWhile_append_dropWhile
  cases hrest : s.dropWhile (· ≠ 0) with
  | nil =>
      rw [hrest, List.append_nil] at hsplit
      exact absurd ⟨[], (List.append_nil s).trans hsplit.symm⟩ h
  | cons c rest =>
      have hnul := List.head?_dropWhile_not (· ≠ 0) s
      rw [hrest, List.head?_cons] at hnul
      obtain rfl : c = 0 := by simpa using hnul
      refine ⟨rest, ?_⟩
      rw [List.append_assoc, List.singleton_append, ← hrest, hsplit]

/-- A service name with a NUL in it equals itself by its own bytes. -/
theorem strcmpEq_own (k : InKey) (s : Bytes) (hname : k.name = s) (h : ¬ k.name <+: untilNul s) :
    strcmpEq k.nameData s = true := by
  subst hname
  obtain ⟨rest, hrest⟩ := untilNul_split k.name h
  have htake := congrArg (List.take ((untilNul k.name).length + 1)) hrest
  rw [List.take_left' (by simp)] at htake
  have hlen : (untilNul k.name).length + 1 ≤ k.name.length := by
    have hlength := congrArg List.length hrest
    simp only [List.length_append, List.length_cons, List.length_nil] at hlength
    omega
  rw [strcmpEq_nameData, htake, Nat.sub_eq_zero_of_le hlen]
  simp

/-! ## Encoding the directory -/

section

variable (env : Env) (s : Session) (requestToken : Int32) (filterMask : FilterMask)

/-- The steps that encode a refresh with the entire directory. -/
def Session.entireDirectorySteps : List EncodeStep :=
  directorySteps s.channel s.provider (directoryRefreshResponse requestToken filterMask) none
    filterMask .addEntry

/-- A refresh depends on the name only by the comparison. -/
theorem sendDirectoryRefresh_congr (name name' : Option CString)
    (h : name.all (strcmpEq · s.provider.serviceName)
      = name'.all (strcmpEq · s.provider.serviceName)) :
    s.sendDirectoryRefresh env requestToken name filterMask
      = s.sendDirectoryRefresh env requestToken name' filterMask := by
  simp only [Session.sendDirectoryRefresh, directorySteps, getDirectoryMap, getServiceDirectory, h]

/-- Neither the program's own tests nor the calls of a directory message end the process. -/
theorem directorySteps_unasserted (c : Channel) (p : ProviderView) (response : RsslMsg)
    (serviceName : Option CString) (mapAction : MapAction) (ok : Bool) :
    .dcheck ok ∉ directorySteps c p response serviceName filterMask mapAction := by
  have hentry : ∀ use id content, .dcheck ok ∉ content →
      EncodeStep.dcheck ok ∉ filterEntry use id content := by
    intro use id content hcontent
    cases use with
    | false => exact List.not_mem_nil
    | true => simpa [filterEntry, EncodeStep.rssl] using hcontent
  have hinfo := hentry filterMask.info .info (getServiceInformation p) (by
    simp [getServiceInformation, getServiceCapabilities, getServiceDictionaries, getServiceQoS,
      EncodeStep.rssl])
  have hstate := hentry filterMask.state .state (getServiceState p) (by
    simp [getServiceState, EncodeStep.rssl])
  have hload := hentry filterMask.load .load getServiceLoad (by
    simp [getServiceLoad, EncodeStep.rssl])
  simp [directorySteps, getDirectoryMap, getServiceDirectory, getServiceFilterList,
    EncodeStep.rssl, hinfo, hstate, hload]

/-- A directory message is encoded completely or cleaned up after. -/
theorem encodeWith_directory (c : Channel) (p : ProviderView) (response : RsslMsg)
    (serviceName : Option CString) (mapAction : MapAction) :
    (∃ calls, encodeWith env.codec (directorySteps c p response serviceName filterMask mapAction)
        = .complete calls)
      ∨ encodeWith env.codec (directorySteps c p response serviceName filterMask mapAction)
        = .failed .cleanup := by
  have hclean := runSteps_cleansUp env.codec [] _
    (directorySteps_cleansUp c p response serviceName filterMask mapAction)
  have hasserted := runSteps_unasserted env.codec [] _
    (directorySteps_unasserted filterMask c p response serviceName mapAction)
  unfold encodeWith
  cases hrun : runSteps env.codec []
      (directorySteps c p response serviceName filterMask mapAction) with
  | complete calls => exact .inl ⟨calls, rfl⟩
  | checkFailed => exact absurd hrun hasserted
  | failed exit =>
      cases exit with
      | cleanup => exact .inr rfl
      | returnFalse => exact absurd hrun hclean

/-- With another name it is given up in the middle, if not before. -/
theorem encodeWith_mismatched (serviceName : Option CString)
    (h : serviceName.all (strcmpEq · s.provider.serviceName) = false) (response : RsslMsg) :
    encodeWith env.codec (directorySteps s.channel s.provider response serviceName filterMask
      .addEntry) = .failed .cleanup := by
  rcases encodeWith_directory env filterMask s.channel s.provider response serviceName .addEntry
    with ⟨calls, hcalls⟩ | hfailed
  · refine absurd hcalls (runSteps_checked env.codec [] calls _ ?_)
    simp [directorySteps, getDirectoryMap, getServiceDirectory, h]
  · exact hfailed

/-- Which shows exactly when the entire directory would have been sent. -/
theorem sendDirectoryRefresh_mismatched (serviceName : Option CString)
    (h : serviceName.all (strcmpEq · s.provider.serviceName) = false) :
    s.sendDirectoryRefresh env requestToken serviceName filterMask
        = s.sendDirectoryRefresh env requestToken none filterMask
      ↔ env.fills (s.entireDirectorySteps requestToken filterMask) = false := by
  have hmismatch := encodeWith_mismatched env s filterMask serviceName h
    (directoryRefreshResponse requestToken filterMask)
  rw [Session.sendDirectoryRefresh, Session.sendDirectoryRefresh, Session.sendEncoded,
    Session.sendEncoded, hmismatch]
  unfold Env.fills Session.entireDirectorySteps
  cases env.getBuffer with
  | false => simp
  | true =>
      rcases encodeWith_directory env filterMask s.channel s.provider
        (directoryRefreshResponse requestToken filterMask) none .addEntry
        with ⟨calls, hcalls⟩ | hfailed
      · refine iff_of_false (fun heq => ?_) (by simp [hcalls, Encoded.isComplete])
        rw [if_pos rfl, if_pos rfl, hcalls] at heq
        have hevents := congrArg Done.events (Option.some.inj heq)
        rw [submitOrRelease_eq] at hevents
        -- a buffer that is submitted is written before it may be released
        cases hagain : env.writes.again <;> simp [hagain, writeCalls] at hevents
      · simp [hfailed, Encoded.isComplete]

end

/-! ## The request -/

/-- The request with other bytes behind its name. -/
def InMsg.followedBy (m : InMsg) (tail : CString) : InMsg :=
  { m with msgKey := { m.msgKey with nameTail := tail } }

/-- The request by a service id in place of the name. -/
def InMsg.byServiceId (m : InMsg) (serviceId : UInt16) : InMsg :=
  { m with msgKey := { m.msgKey with
      flags := { m.msgKey.flags with hasName := false, hasServiceId := true }
      serviceId := serviceId } }

/-- A directory request comes to the same whatever follows its name, and, if the name is that of
    the provider, to the same as the request by the service id of the provider. -/
def NameDecides (env : Env) (s : Session) (m : InMsg) : Prop :=
  (∀ tail, s.onDirectoryRequest env (m.followedBy tail) = s.onDirectoryRequest env m)
    ∧ (m.msgKey.name = s.provider.serviceName →
        s.onDirectoryRequest env m
          = s.onDirectoryRequest env (m.byServiceId s.provider.serviceId))

/-- What a directory request would be answered with, by the entire directory. -/
def Session.entireDirectory (env : Env) (s : Session) (m : InMsg) : Option Done :=
  (s.setDirectoryToken m.streamId).sendDirectoryRefresh env m.streamId none m.msgKey.filter

theorem cStr_matches (s : Bytes) : strcmpEq (cStr s) s = true := by
  let k : InKey := ⟨{}, 0, .ric, s, fun _ => 0, {}, .noData⟩
  change strcmpEq k.nameData s = true
  by_cases h : s <+: untilNul s
  · have heq : untilNul s = s := (List.takeWhile_prefix _).eq_of_length_le h.length_le
    rw [strcmpEq_nameData, heq]
    simp [k]
  · exact strcmpEq_own k s rfl h

/-- The own service id stands for the entire directory. -/
theorem onDirectoryRequest_byServiceId (env : Env) (s : Session) (m : InMsg) :
    s.onDirectoryRequest env (m.byServiceId s.provider.serviceId) = s.entireDirectory env m := by
  have howned := sendDirectoryRefresh_congr env (s.setDirectoryToken m.streamId) m.streamId
    m.msgKey.filter (some (cStr s.provider.serviceName)) none (cStr_matches s.provider.serviceName)
  by_cases hid : s.provider.serviceId = 0
  · simp [Session.onDirectoryRequest, InMsg.byServiceId, hid, Session.entireDirectory]
  · simp only [Session.onDirectoryRequest, InMsg.byServiceId, Session.entireDirectory, ← howned]
    simp [hid, Session.setDirectoryToken]

/-- **A directory request depends on its name alone unless the name is the beginning of the
    service name** and the directory could be sent. -/
theorem nameDecides_iff (env : Env) (s : Session) (m : InMsg)
    (hname : m.msgKey.flags.hasName = true) :
    NameDecides env s m ↔
      ¬ m.msgKey.name <+: untilNul s.provider.serviceName
        ∨ env.fills (s.entireDirectorySteps m.streamId m.msgKey.filter) = false := by
  have hrequest : ∀ tail, s.onDirectoryRequest env (m.followedBy tail)
      = (s.setDirectoryToken m.streamId).sendDirectoryRefresh env m.streamId
        (some { m.msgKey with nameTail := tail }.nameData) m.msgKey.filter := by
    intro tail
    exact if_pos hname
  have hmatch : ∀ tail, strcmpEq { m.msgKey with nameTail := tail }.nameData
      s.provider.serviceName = true →
      s.onDirectoryRequest env (m.followedBy tail) = s.entireDirectory env m := by
    intro tail htrue
    rw [hrequest tail]
    exact sendDirectoryRefresh_congr env (s.setDirectoryToken m.streamId) _ _ _ none htrue
  have hmismatch : ∀ tail, strcmpEq { m.msgKey with nameTail := tail }.nameData
      s.provider.serviceName = false →
      (s.onDirectoryRequest env (m.followedBy tail) = s.entireDirectory env m
        ↔ env.fills (s.entireDirectorySteps m.streamId m.msgKey.filter) = false) := by
    intro tail hfalse
    rw [hrequest tail]
    exact sendDirectoryRefresh_mismatched env (s.setDirectoryToken m.streamId) _ _ _ hfalse
  have hsame : m.followedBy m.msgKey.nameTail = m := rfl
  rw [NameDecides, onDirectoryRequest_byServiceId]
  constructor
  · rintro ⟨htail, -⟩
    by_contra hnot
    rw [not_or, not_not] at hnot
    obtain ⟨hbegins, hfills⟩ := hnot
    obtain ⟨⟨good, hgood⟩, ⟨bad, hbad⟩⟩ := strcmpEq_prefix m.msgKey _ hbegins
    refine hfills ((hmismatch bad hbad).mp ?_)
    rw [htail bad, ← htail good]
    exact hmatch good hgood
  · rintro (hbegins | hfails)
    · refine ⟨fun tail => ?_, fun hown => ?_⟩
      · rw [← hsame, hrequest m.msgKey.nameTail]
        refine (hrequest tail).trans ?_
        exact sendDirectoryRefresh_congr env (s.setDirectoryToken m.streamId) _ _ _ _
          (strcmpEq_tail m.msgKey _ tail hbegins)
      · exact hmatch m.msgKey.nameTail (strcmpEq_own m.msgKey _ hown hbegins)
    · have hentire : ∀ tail, s.onDirectoryRequest env (m.followedBy tail)
          = s.entireDirectory env m := by
        intro tail
        cases heq : strcmpEq { m.msgKey with nameTail := tail }.nameData
            s.provider.serviceName with
        | true => exact hmatch tail heq
        | false => exact (hmismatch tail heq).mpr hfails
      have hown := hentire m.msgKey.nameTail
      rw [hsame] at hown
      exact ⟨fun tail => (hentire tail).trans hown.symm, fun _ => hown⟩

/-- A directory request for the service `name`, with `behind` in every byte behind it. -/
def directoryByName (name : Bytes) (behind : UInt8) : InMsg :=
  { InMsg.plain .request .source 3 with
    msgKey := ⟨{ hasName := true, hasFilter := true }, 0, .other 0, name, fun _ => behind,
      { info := true }, .noData⟩ }

/-- A name that is no beginning of "VTA" is refused for itself. -/
theorem otherName_decides : NameDecides willingEnv clearSession (directoryByName [86, 84, 66] 0) :=
  (nameDecides_iff willingEnv clearSession (directoryByName [86, 84, 66] 0) rfl).mpr
    (.inl (by decide))

/-- "VTA", the name of the service, is answered with the directory when a NUL follows it, and
    refused when an X does. -/
theorem ownName_undecided :
    ((clearSession.onDirectoryRequest willingEnv
          (directoryByName [86, 84, 65] 0)).map Done.ret = some true
      ∧ (clearSession.onDirectoryRequest willingEnv
          (directoryByName [86, 84, 65] 88)).map Done.ret = some false
      ∧ (clearSession.onDirectoryRequest willingEnv
          ((directoryByName [86, 84, 65] 88).byServiceId 1)).map Done.ret = some true)
    ∧ ¬ NameDecides willingEnv clearSession (directoryByName [86, 84, 65] 88) := by
  have hbad : (clearSession.onDirectoryRequest willingEnv
      (directoryByName [86, 84, 65] 88)).map Done.ret = some false := by decide +kernel
  have hid : (clearSession.onDirectoryRequest willingEnv
      ((directoryByName [86, 84, 65] 88).byServiceId 1)).map Done.ret = some true := by
    decide +kernel
  refine ⟨⟨by decide +kernel, hbad, hid⟩, ?_⟩
  rintro ⟨-, hown⟩
  have hret := congrArg (Option.map Done.ret) (hown rfl)
  rw [hbad] at hret
  exact absurd (hret.trans hid) (by decide)

end Hitsuji
