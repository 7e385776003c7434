/-!
Counters of one engine. They are words of 64 bits and wrap, except that the count of active
connections stops at zero.
-/
namespace PeerLink

/-- What has happened since the engine started. -/
structure Metrics where
  connectionsTotal : UInt64 := 0
  connectionsActive : UInt64 := 0
  handshakesTotal : UInt64 := 0
  handshakesSuccess : UInt64 := 0
  handshakesFailed : UInt64 := 0
  messagesSent : UInt64 := 0
  messagesReceived : UInt64 := 0
  bytesSent : UInt64 := 0
  bytesReceived : UInt64 := 0
  /-- Frames that hold no message. -/
  protocolErrors : UInt64 := 0
  /-- Messages without an action for their head. -/
  unhandled : UInt64 := 0
  /-- Answers that nobody waits for. -/
  orphanReplies : UInt64 := 0
  datagramsSent : UInt64 := 0
  datagramsReceived : UInt64 := 0
  /-- Datagrams that a newer one replaced before they were sent. -/
  datagramsShed : UInt64 := 0
  deriving DecidableEq, Inhabited

namespace Metrics

def connectionEstablished (m : Metrics) : Metrics :=
  { m with connectionsTotal := m.connectionsTotal + 1, connectionsActive := m.connectionsActive + 1 }

/-- A second close of one connection does not wrap the count. -/
def connectionClosed (m : Metrics) : Metrics :=
  if m.connectionsActive = 0 then m else { m with connectionsActive := m.connectionsActive - 1 }

def handshakeAttempt (m : Metrics) : Metrics := { m with handshakesTotal := m.handshakesTotal + 1 }

def handshakeSuccess (m : Metrics) : Metrics := { m with handshakesSuccess := m.handshakesSuccess + 1 }

def handshakeFailed (m : Metrics) : Metrics := { m with handshakesFailed := m.handshakesFailed + 1 }

def messageSent (m : Metrics) (bytes : Nat) : Metrics :=
  { m with messagesSent := m.messagesSent + 1, bytesSent := m.bytesSent + .ofNat bytes }

def messageReceived (m : Metrics) (bytes : Nat) : Metrics :=
  { m with messagesReceived := m.messagesReceived + 1, bytesReceived := m.bytesReceived + .ofNat bytes }

def protocolError (m : Metrics) : Metrics := { m with protocolErrors := m.protocolErrors + 1 }

def unhandledMessage (m : Metrics) : Metrics := { m with unhandled := m.unhandled + 1 }

def orphanReply (m : Metrics) : Metrics := { m with orphanReplies := m.orphanReplies + 1 }

def datagramSent (m : Metrics) (bytes : Nat) : Metrics :=
  { m with datagramsSent := m.datagramsSent + 1, bytesSent := m.bytesSent + .ofNat bytes }

def datagramReceived (m : Metrics) (bytes : Nat) : Metrics :=
  { m with datagramsReceived := m.datagramsReceived + 1, bytesReceived := m.bytesReceived + .ofNat bytes }

def datagramShed (m : Metrics) : Metrics := { m with datagramsShed := m.datagramsShed + 1 }

def toList (m : Metrics) : List (String × UInt64) :=
  [("connections_total", m.connectionsTotal), ("connections_active", m.connectionsActive),
    ("handshakes_total", m.handshakesTotal), ("handshakes_success", m.handshakesSuccess),
    ("handshakes_failed", m.handshakesFailed), ("messages_sent", m.messagesSent),
    ("messages_received", m.messagesReceived), ("bytes_sent", m.bytesSent),
    ("bytes_received", m.bytesReceived), ("protocol_errors", m.protocolErrors),
    ("unhandled", m.unhandled), ("orphan_replies", m.orphanReplies),
    ("datagrams_sent", m.datagramsSent), ("datagrams_received", m.datagramsReceived),
    ("datagrams_shed", m.datagramsShed)]

end Metrics

end PeerLink
