import Hitsuji.Rssl.Message

set_option autoImplicit false

/-! # Encoding with an RSSL iterator

Every message the program builds is a fixed sequence of calls on one encode iterator, each tested
against the code expected of it and abandoned at the first that differs. Such a sequence is a list
of `EncodeStep`s here; the iterator itself is the parameter `Codec`, any function of the calls made
so far, which covers every assignment of return codes. -/

namespace Hitsuji

open ByteBuffer

/-! ## Calls -/

/-- `RSSL_RH_…` -/
inductive RealHint where
  | exponent0
  | exponent_4
  | exponent7
  deriving DecidableEq

/-- A primitive handed to an entry encoder, with its data type. -/
inductive Value where
  | uint (v : UInt64)
  | asciiString (s : Bytes)
  | rmtesString (s : Bytes)
  | real (value : Int64) (hint : RealHint)
  | blankReal
  /-- `rsslDoubleToReal` of an unsigned integer -/
  | doubleToReal (v : UInt64) (hint : RealHint)
  /-- static, tick by tick, real time -/
  | qosTickByTickRealtime
  deriving DecidableEq

/-- `RSSL_MPEA_…` -/
inductive MapAction where
  | addEntry
  | updateEntry
  deriving DecidableEq

/-- `RDM_DIRECTORY_SERVICE_…_ID` -/
inductive FilterId where
  | info
  | state
  | load
  deriving DecidableEq

/-- A call on an encode iterator, with what is handed to it. -/
inductive EncodeCall where
  | setBuffer (capacity : Nat)
  | setRwfVersion (major minor : UInt8)
  | msg (m : RsslMsg)
  | msgInit (m : RsslMsg) (maxSize : Nat)
  | msgKeyAttribComplete
  | msgComplete
  | elementListInit (size : Nat)
  | elementEntry (element : ElementName) (v : Value)
  | elementEntryInit (element : ElementName) (dataType : DataType)
  | elementEntryComplete
  | elementListComplete
  | fieldListInit
  | fieldEntry (fieldId : Int) (v : Value)
  | fieldListComplete
  | arrayInit (primitiveType : DataType) (itemLength : Nat)
  | arrayEntry (v : Value)
  | arrayComplete
  | mapInit (keyPrimitiveType containerType : DataType)
  | mapEntryInit (action : MapAction) (key : UInt64)
  | mapEntryComplete
  | mapComplete
  | filterListInit (containerType : DataType) (totalCountHint : Nat)
  | filterEntryInit (id : FilterId)
  | filterEntryComplete
  | filterListComplete
  | validateMsg (m : RsslMsg)
  deriving DecidableEq

/-- The encoder: the code each call returns and the bytes written so far, given the calls made on
    the iterator before. It never writes past the buffer it was given. -/
structure Codec where
  ret : List EncodeCall → EncodeCall → RsslRet
  image : List EncodeCall → Bytes
  image_length_le : ∀ capacity calls, (image (.setBuffer capacity :: calls)).length ≤ capacity

/-- The codes of an encoder that accepts everything: `rsslEncodeMsgInit` asks for the attribute of
    the message key, or for the payload, when the message announces one. -/
def willingRet : EncodeCall → RsslRet
  | .msgInit m _ =>
      if m.msgKey.flags.hasAttrib then .encodeMsgKeyOpaque
      else if m.containerType = .noData then .success
      else .encodeContainer
  | _ => .success

/-- An encoder that refuses the calls in `refused`. -/
def Codec.refusing (refused : List EncodeCall) : Codec where
  ret := fun _ c => if c ∈ refused then .failure 1 else willingRet c
  image := fun _ => []
  image_length_le := fun _ _ => Nat.zero_le _

/-! ## Sequences of calls -/

/-- Where a failing call goes. -/
inductive Exit where
  /-- `goto cleanup` -/
  | cleanup
  /-- `return false` -/
  | returnFalse
  deriving DecidableEq

/-- One step of an encoding function. -/
inductive EncodeStep where
  /-- a call, the only code accepted from it, and where any other code leads -/
  | call (c : EncodeCall) (expect : RsslRet) (exit : Exit)
  /-- a test of the program itself -/
  | check (ok : Bool)
  /-- a `DCHECK` compiled in -/
  | dcheck (ok : Bool)
  deriving DecidableEq

/-- The usual step: anything but success goes to cleanup. -/
def EncodeStep.rssl (c : EncodeCall) : EncodeStep :=
  .call c .success .cleanup

/-- How a sequence of steps ends. -/
inductive Encoded where
  | complete (calls : List EncodeCall)
  | failed (exit : Exit)
  /-- an assertion ended the process -/
  | checkFailed
  deriving DecidableEq

/-- Run the steps on an iterator that has seen `calls`. -/
def runSteps (codec : Codec) : List EncodeCall → List EncodeStep → Encoded
  | calls, [] => .complete calls
  | calls, .call c expect exit :: rest =>
      if codec.ret calls c = expect then runSteps codec (calls ++ [c]) rest else .failed exit
  | calls, .check ok :: rest => if ok then runSteps codec calls rest else .failed .cleanup
  | calls, .dcheck ok :: rest => if ok then runSteps codec calls rest else .checkFailed

/-- Encoding from a cleared iterator. -/
def encodeWith (codec : Codec) (steps : List EncodeStep) : Encoded :=
  runSteps codec [] steps

/-- The calls made, the failing one included. -/
def attempted (codec : Codec) : List EncodeCall → List EncodeStep → List EncodeCall
  | calls, [] => calls
  | calls, .call c expect _ :: rest =>
      if codec.ret calls c = expect then attempted codec (calls ++ [c]) rest else calls ++ [c]
  | calls, .check ok :: rest | calls, .dcheck ok :: rest =>
      if ok then attempted codec calls rest else calls

/-- Every call returns what the program expects of it, and every test of its own passes. -/
def Encoded.isComplete : Encoded → Bool
  | .complete _ => true
  | _ => false

/-- The call a step makes. -/
def EncodeStep.made : EncodeStep → Option EncodeCall
  | .call c _ _ => some c
  | .check _ | .dcheck _ => none

/-- Steps whose calls all go to cleanup can only fail there. -/
def EncodeStep.cleansUp : EncodeStep → Bool
  | .call _ _ exit => exit = .cleanup
  | .check _ | .dcheck _ => true

theorem runSteps_append (codec : Codec) (calls : List EncodeCall) (xs ys : List EncodeStep) :
    runSteps codec calls (xs ++ ys) =
      match runSteps codec calls xs with
      | .complete calls' => runSteps codec calls' ys
      | failure => failure := by
  induction xs generalizing calls with
  | nil => rfl
  | cons step rest ih =>
      cases step with
      | call c expect exit =>
          simp only [List.cons_append, runSteps]
          split
          · exact ih (calls ++ [c])
          · rfl
      | check ok =>
          cases ok with
          | true => exact ih calls
          | false => rfl
      | dcheck ok =>
          cases ok with
          | true => exact ih calls
          | false => rfl

/-- A complete sequence has made all its calls. -/
theorem runSteps_complete (codec : Codec) (calls calls' : List EncodeCall) (steps : List EncodeStep)
    (h : runSteps codec calls steps = .complete calls') :
    calls' = calls ++ steps.filterMap EncodeStep.made := by
  induction steps generalizing calls with
  | nil =>
      obtain rfl := Encoded.complete.inj h
      exact (List.append_nil calls).symm
  | cons step rest ih =>
      cases step with
      | call c expect exit =>
          simp only [runSteps] at h
          split at h
          · rw [ih (calls ++ [c]) h, List.append_assoc]
            rfl
          · exact absurd h (by simp)
      | check ok | dcheck ok =>
          simp only [runSteps] at h
          split at h
          · exact ih calls h
          · exact absurd h (by simp)

/-- Without an assertion, encoding does not end the process. -/
theorem runSteps_unasserted (codec : Codec) (calls : List EncodeCall) (steps : List EncodeStep)
    (h : ∀ ok, .dcheck ok ∉ steps) : runSteps codec calls steps ≠ .checkFailed := by
  induction steps generalizing calls with
  | nil => simp [runSteps]
  | cons step rest ih =>
      have hrest : ∀ ok, .dcheck ok ∉ rest := fun ok hmem => h ok (List.mem_cons_of_mem _ hmem)
      cases step with
      | call c expect exit =>
          simp only [runSteps]
          split
          · exact ih (calls ++ [c]) hrest
          · simp
      | check ok =>
          simp only [runSteps]
          split
          · exact ih calls hrest
          · simp
      | dcheck ok => exact absurd (List.mem_cons_self ..) (h ok)

/-- The only assertion decides. -/
theorem runSteps_asserted (codec : Codec) (calls : List EncodeCall) (steps : List EncodeStep)
    (ok : Bool) (h : ∀ ok, .dcheck ok ∉ steps) :
    runSteps codec calls (.dcheck ok :: steps) = .checkFailed ↔ ok = false := by
  cases ok with
  | false => simp [runSteps]
  | true => simp [runSteps, runSteps_unasserted codec calls steps h]

/-- A test that fails is not passed. -/
theorem runSteps_checked (codec : Codec) (calls calls' : List EncodeCall) (steps : List EncodeStep)
    (h : .check false ∈ steps) : runSteps codec calls steps ≠ .complete calls' := by
  induction steps generalizing calls with
  | nil => exact absurd h List.not_mem_nil
  | cons step rest ih =>
      cases step with
      | call c expect exit =>
          have hrest : .check false ∈ rest := by simpa using h
          simp only [runSteps]
          split
          · exact ih (calls ++ [c]) hrest
          · simp
      | check ok =>
          cases ok with
          | true => exact ih calls (by simpa using h)
          | false => simp [runSteps]
      | dcheck ok =>
          cases ok with
          | true => exact ih calls (by simpa using h)
          | false => simp [runSteps]

/-- A sequence that always cleans up never returns past the cleanup label. -/
theorem runSteps_cleansUp (codec : Codec) (calls : List EncodeCall) (steps : List EncodeStep)
    (h : steps.all EncodeStep.cleansUp = true) :
    runSteps codec calls steps ≠ .failed .returnFalse := by
  induction steps generalizing calls with
  | nil => simp [runSteps]
  | cons step rest ih =>
      rw [List.all_cons, Bool.and_eq_true] at h
      obtain ⟨hstep, hrest⟩ := h
      cases step with
      | call c expect exit =>
          obtain rfl : exit = .cleanup := of_decide_eq_true hstep
          simp only [runSteps]
          split
          · exact ih (calls ++ [c]) hrest
          · simp
      | check ok =>
          cases ok with
          | true => exact ih calls hrest
          | false => simp [runSteps]
      | dcheck ok =>
          cases ok with
          | true => exact ih calls hrest
          | false => simp [runSteps]

end Hitsuji
