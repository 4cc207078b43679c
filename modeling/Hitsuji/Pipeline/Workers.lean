import Hitsuji.Pipeline.Server
import Hitsuji.Worker.History

set_option autoImplicit false

/-! # Workers in the pipeline

A step of the pipeline lets a worker reply with any content of its message buffer. What `OnTask`
really sends is such a reply. -/

namespace Hitsuji

open ByteBuffer

/-- A reply to the request seen, with an encoded message that fits the buffer. -/
def Replies (view : RequestView) (msg : Bytes) : Prop :=
  ∃ image, image.length ≤ maxMsgSize
    ∧ msg = replyImage view.handle view.token image.length image

theorem close_replies (env : TaskEnv) (view : RequestView) (itemName : Bytes)
    (streamState : StreamState) (statusCode : StatusCode) (statusText msg : Bytes)
    (h : (closeAnswer env view itemName streamState statusCode statusText).bind Prod.snd
      = some msg) : Replies view msg := by
  obtain ⟨calls, hcalls, hmsg⟩ :=
    closeAnswer_reply env view itemName streamState statusCode statusText msg h
  exact ⟨_, Worker.image_fits env _ maxMsgSize calls rfl hcalls, hmsg⟩

theorem result_replies (env : TaskEnv) (view : RequestView) (itemName lock msg : Bytes)
    (r : Result) (h : (r.answer env view itemName lock).bind Prod.snd = some msg) :
    Replies view msg := by
  cases r with
  | close streamState statusCode statusText => exact close_replies env view itemName _ _ _ msg h
  | refresh a =>
      rcases refreshAnswer_reply env view itemName a lock msg h with
        ⟨calls, hcalls, hmsg⟩ | ⟨-, hclose⟩
      · exact ⟨_, Worker.image_fits env _ maxMsgSize calls rfl hcalls, hmsg⟩
      · exact close_replies env view itemName _ _ _ msg hclose

/-- **What a worker sends is a reply the pipeline knows.** -/
theorem onTask_workerReply (w : Worker) (env : TaskEnv) (buffer msg : Bytes) (d : TaskDone)
    (h : w.onTask env buffer = some d) (hmsg : d.reply = some msg) :
    ∃ rssl, Server.workerReply env.mem rssl buffer = some msg := by
  have heffect := w.onTask_effect env buffer
  rw [h, serve] at heffect
  simp only [Server.workerReply]
  generalize decodeRequest .lengthFirst buffer = decoded at heffect ⊢
  rcases decoded with fault | _ | view
  · exact absurd heffect (by simp)
  · have hnone : d.reply = none :=
      congrArg (fun effect => effect.1.2) (Option.some.inj heffect)
    exact absurd (hmsg.symm.trans hnone) (by simp)
  · obtain ⟨answer, hanswer, heq⟩ := Option.map_eq_some_iff.mp heffect.symm
    obtain ⟨rfl, -⟩ := Prod.mk.inj heq
    obtain ⟨image, himage, rfl⟩ :=
      result_replies env view _ _ msg _ (by rw [hanswer]; exact hmsg)
    have hwrite := Worker.write_payload Server.emptyReply image himage
    refine ⟨Server.emptyReply.write image, ?_⟩
    simp only [encodeReply_eq, hwrite, Except.toOption]

end Hitsuji
