import Foco.Json

/-!
The provider messages of `providers/lib.rs` that a stored chat is rebuilt to.
-/
namespace Foco.HistoryReplay
open Foco.RustText

structure NeutralToolCall where
  callId : Text
  name : Text
  arguments : Json

inductive NeutralChatRole where
  | system | developer | user | assistant | tool
  deriving DecidableEq

structure NeutralChatAttachment where
  id : Text
  name : Text
  contentType : Text
  sizeBytes : Nat
  contentBase64 : Option Text
  path : Option Text

structure NeutralChatMessage where
  role : NeutralChatRole
  content : Text
  attachments : List NeutralChatAttachment := []
  reasoning : Option Text := none
  toolCalls : List NeutralToolCall := []
  toolCallId : Option Text := none
  toolName : Option Text := none

end Foco.HistoryReplay
