import OsModa.Base.Encoding
import OsModa.Base.Session

/-!
The messages of the mesh and the frames that carry them over TCP: four bytes of
big-endian length, then the payload.
-/

namespace OsModa.Mesh

open OsModa.Encoding OsModa.Session

inductive AlertSeverity where
  | info
  | warning
  | critical
  deriving DecidableEq

/-- All message types that can be sent over a mesh connection. -/
inductive MeshMessage where
  | heartbeat (timestamp : String)
  | healthReport (hostname : String) (cpu memory : Float) (uptime : UInt64)
  | alert (severity : AlertSeverity) (title detail : String)
  /-- No room: a direct message. -/
  | chat (sender text : String) (roomId : Option String)
  /-- A base64-encoded ML-KEM ciphertext. -/
  | pqExchange (mlkemCiphertext : String)

/-- Maximum message size (1 MB). -/
def maxMessageSize : Nat := 1048576

/-- The length is a `u32`, so that of a longer payload would wrap. -/
def encodeFrame (payload : List UInt8) : List UInt8 := bigEndian 4 payload.length ++ payload

def decodeFrameLength (header : List UInt8) : Nat := bigValue header

/-- The error for a frame that is over the maximum. -/
def frameTooLarge (length : Nat) : String :=
  "frame too large: " ++ toString length ++ " bytes (max " ++ toString maxMessageSize ++ ")"

variable {α β : Type}

def sendFrame (data : List UInt8) (next : Party α) : Party α := .send (encodeFrame data) next

def recvFrame (next : List UInt8 → Party α) : Party α :=
  .recv 4 fun header =>
    let length := decodeFrameLength header
    if length > maxMessageSize then .done (.error (frameTooLarge length))
    else .recv length next

@[simp] theorem sendFrame_bind (data : List UInt8) (next : Party α) (f : α → Party β) :
    (sendFrame data next).bind f = sendFrame data (next.bind f) := rfl

@[simp] theorem recvFrame_bind (next : List UInt8 → Party α) (f : α → Party β) :
    (recvFrame next).bind f = recvFrame fun payload => (next payload).bind f := by
  unfold recvFrame
  rw [Party.recv_bind]
  congr
  funext header
  dsimp only
  split <;> rfl

/-- A frame whose length fits is received as it was sent. -/
theorem linked_frame {p : Party α} {next : List UInt8 → Party β} {a : α} {b : β}
    {data : List UInt8} (hlen : data.length < 2 ^ 32)
    (h : Linked (sendFrame data p) (recvFrame next) a b) : Linked p (next data) a b := by
  have hheader := Linked.transfer (length_bigEndian 4 data.length) h
  have hvalue : decodeFrameLength (bigEndian 4 data.length) = data.length := by
    rw [decodeFrameLength, bigValue_bigEndian]
    exact Nat.mod_eq_of_lt hlen
  dsimp only at hheader
  rw [hvalue] at hheader
  split at hheader
  · exact absurd hheader Linked.not_failed
  · rw [← List.append_nil data] at hheader
    exact (Linked.transfer (by rw [List.append_nil]) hheader).sent_nil

end OsModa.Mesh
