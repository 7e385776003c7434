import Mathlib.Data.String.Basic
import PeerLink.Proofs.Config

/-!
The bounds of settings. Of a duration only the whole seconds are held against a maximum, so it may be exceeded by less
than a second, and a name is measured in bytes although its problem counts characters. All other bounds are enforced as
the problems state them.
-/
namespace PeerLink.Config

open TransportConfig

/-- How durations are held against a maximum in seconds, and how names are measured. -/
structure Scale where
  AtMost : Nat → Nat → Prop
  size : String → Nat

namespace Scale

/-- The scale that the problems speak of. -/
def exact : Scale := ⟨fun duration most => duration ≤ most * second, String.length⟩

/-- The scale that settings are checked by. -/
def coarse : Scale := ⟨fun duration most => seconds duration ≤ most, String.utf8ByteSize⟩

end Scale

structure Within (s : Scale) (c : Config) : Prop where
  connections : 1 ≤ c.server.maxConnections ∧ c.server.maxConnections ≤ 0xffffff
  handshake : 100 * millisecond ≤ c.server.handshakeTimeout ∧ s.AtMost c.server.handshakeTimeout 300
  shutdown : 1 * second ≤ c.server.shutdownTimeout ∧ s.AtMost c.server.shutdownTimeout 60
  /-- Datagrams need a port behind that of the server. -/
  datagrams : c.server.udpEnabled = true →
    ∀ a, SocketAddress.ofString? c.server.address = some a → a.port.toNat ≠ 65535
  connecting : 100 * millisecond ≤ c.client.connectionTimeout
  answering : 100 * millisecond ≤ c.client.responseTimeout
  frame : 10 ≤ c.transport.maxFrame ∧ c.transport.maxFrame ≤ 65535
  key : c.transport.encryption.requiresKey = true → c.transport.encryptionKey.getD "" ≠ ""
  workers : 1 ≤ c.queue.workers ∧ c.queue.workers ≤ 256
  scanning : 0 < c.queue.scanInterval ∧ s.AtMost c.queue.scanInterval 1
  name : 1 ≤ s.size c.logging.appName ∧ s.size c.logging.appName ≤ 64

structure Addressed (c : Config) : Prop where
  listens : (SocketAddress.ofString? c.server.address).isSome
  connects : (SocketAddress.ofString? c.client.address).isSome

/-- A duration exceeds the maximum that its problem states. -/
def Overruns (c : Config) : Prop :=
  300 * second < c.server.handshakeTimeout ∨ 60 * second < c.server.shutdownTimeout ∨
    1 * second < c.queue.scanInterval

variable {c : Config} {duration most : Nat}

theorem length_le_utf8ByteSize (text : String) : text.length ≤ text.utf8ByteSize := by
  rw [← String.length_toList]
  conv => rhs; rw [← String.ofList_toList (s := text), String.utf8ByteSize_ofList]
  induction text.toList with
  | nil => exact Nat.le_refl 0
  | cons c cs ih =>
    have := c.utf8Size_pos
    rw [List.length_cons, String.utf8Len_cons]
    omega

/-! ### What each setting may be -/

theorem le_milliseconds_iff : most ≤ milliseconds duration ↔ most * millisecond ≤ duration :=
  Nat.le_div_iff_mul_le (by decide)

theorem le_seconds_iff : most ≤ seconds duration ↔ most * second ≤ duration :=
  Nat.le_div_iff_mul_le (by decide)

theorem isEmpty_of_valid {address : String} (valid : (SocketAddress.ofString? address).isSome) :
    address.isEmpty = false := by
  rw [Bool.eq_false_iff]
  intro empty
  rw [String.isEmpty_iff.mp empty] at valid
  cases valid

theorem harmless_addressProblems {a : SocketAddress} (valid : SocketAddress.ofString? c.server.address = some a) :
    Harmless c.server.addressProblems ↔ (c.server.udpEnabled = true → a.port.toNat ≠ 65535) := by
  have given := isEmpty_of_valid (Option.isSome_of_eq_some valid)
  simp only [ServerConfig.addressProblems, given, valid, Bool.false_eq_true, if_false]
  rw [harmless_problemIf (by simp)]
  simp [← UInt16.toNat_inj]

theorem addressProblems_eq_nil (valid : (SocketAddress.ofString? c.client.address).isSome) :
    c.client.addressProblems = [] := by
  have given := isEmpty_of_valid valid
  have unread : (SocketAddress.ofString? c.client.address).isNone = false := by
    rw [Option.isNone_eq_false_iff]
    exact valid
  simp only [ClientConfig.addressProblems, given, unread, problemIf, Bool.false_eq_true, if_false]

theorem harmless_limitProblems :
    Harmless c.server.limitProblems ↔ 1 ≤ c.server.maxConnections ∧ c.server.maxConnections ≤ 0xffffff := by
  rw [ServerConfig.limitProblems, harmless_range (by simp) (by simp [toString]), Nat.not_lt]
  omega

theorem harmless_handshakeProblems : Harmless c.server.handshakeProblems ↔
    100 * millisecond ≤ c.server.handshakeTimeout ∧ seconds c.server.handshakeTimeout ≤ 300 := by
  rw [ServerConfig.handshakeProblems, harmless_range (by simp) (by simp), Nat.not_lt, Nat.not_lt,
    le_milliseconds_iff]

theorem harmless_shutdownProblems : Harmless c.server.shutdownProblems ↔
    1 * second ≤ c.server.shutdownTimeout ∧ seconds c.server.shutdownTimeout ≤ 60 := by
  rw [ServerConfig.shutdownProblems, harmless_range (by simp) (by simp), Nat.not_lt, Nat.not_lt, le_seconds_iff]

theorem harmless_client (valid : (SocketAddress.ofString? c.client.address).isSome) : Harmless c.client.problems ↔
    100 * millisecond ≤ c.client.connectionTimeout ∧ 100 * millisecond ≤ c.client.responseTimeout := by
  rw [ClientConfig.problems, addressProblems_eq_nil valid, List.nil_append, harmless_append,
    harmless_problemIf (by simp), harmless_problemIf (by simp), decide_eq_false_iff_not, decide_eq_false_iff_not,
    Nat.not_lt, Nat.not_lt, le_milliseconds_iff, le_milliseconds_iff]

theorem harmless_queue : Harmless c.queue.problems ↔
    (1 ≤ c.queue.workers ∧ c.queue.workers ≤ 256) ∧ 0 < c.queue.scanInterval ∧ seconds c.queue.scanInterval ≤ 1 := by
  rw [QueueConfig.problems, harmless_append, harmless_range (by simp) (by simp [toString]),
    harmless_range (by simp) (by simp)]
  simp only [Nat.not_lt, Nat.pos_iff_ne_zero, Nat.one_le_iff_ne_zero]

theorem harmless_logging : Harmless c.logging.problems ↔
    1 ≤ c.logging.appName.utf8ByteSize ∧ c.logging.appName.utf8ByteSize ≤ 64 := by
  rw [LoggingConfig.problems, harmless_range (by simp) (by simp [toString]), Nat.not_lt, String.isEmpty_iff,
    ← String.utf8ByteSize_eq_zero_iff, Nat.one_le_iff_ne_zero]

theorem harmless_problems (addressed : c.Addressed) : Harmless c.problems ↔ c.Within .coarse := by
  obtain ⟨a, valid⟩ := Option.isSome_iff_exists.mp addressed.listens
  simp only [problems, ServerConfig.problems, harmless_append, harmless_addressProblems valid, harmless_limitProblems,
    harmless_handshakeProblems, harmless_shutdownProblems, harmless_client addressed.connects, harmless_queue,
    harmless_logging]
  rw [← TransportConfig.Usable, usable_iff]
  constructor
  · rintro ⟨⟨⟨⟨server, connecting, answering⟩, frame, key⟩, workers, scanning⟩, name⟩
    obtain ⟨⟨⟨datagrams, connections⟩, handshake⟩, shutdown⟩ := server
    refine ⟨connections, handshake, shutdown, ?_, connecting, answering, frame, key, workers, scanning, name⟩
    intro enabled b spelled
    cases valid.symm.trans spelled
    exact datagrams enabled
  · intro w
    have datagrams := fun enabled => w.datagrams enabled a valid
    exact ⟨⟨⟨⟨⟨⟨⟨datagrams, w.connections⟩, w.handshake⟩, w.shutdown⟩, w.connecting, w.answering⟩, w.frame, w.key⟩,
      w.workers, w.scanning⟩, w.name⟩

/-! ### Where checking and the problems disagree -/

theorem atMost_coarse (short : Scale.exact.AtMost duration most) : Scale.coarse.AtMost duration most := by
  simp only [Scale.exact, Scale.coarse, seconds, second, millisecond] at short ⊢
  omega

theorem Within.not_overruns (w : c.Within .exact) : ¬c.Overruns := by
  rintro (long | long | long)
  · exact Nat.not_lt.mpr w.handshake.2 long
  · exact Nat.not_lt.mpr w.shutdown.2 long
  · exact Nat.not_lt.mpr w.scanning.2 long

theorem Within.coarse (w : c.Within .exact) (short : c.logging.appName.utf8ByteSize ≤ 64) : c.Within .coarse where
  connections := w.connections
  handshake := w.handshake.imp_right atMost_coarse
  shutdown := w.shutdown.imp_right atMost_coarse
  datagrams := w.datagrams
  connecting := w.connecting
  answering := w.answering
  frame := w.frame
  key := w.key
  workers := w.workers
  scanning := w.scanning.imp_right atMost_coarse
  name := ⟨Nat.le_trans w.name.1 (length_le_utf8ByteSize _), short⟩

theorem Within.exact (w : c.Within .coarse) (short : ¬c.Overruns) : c.Within .exact where
  connections := w.connections
  handshake := ⟨w.handshake.1, Nat.not_lt.mp fun long => short (.inl long)⟩
  shutdown := ⟨w.shutdown.1, Nat.not_lt.mp fun long => short (.inr (.inl long))⟩
  datagrams := w.datagrams
  connecting := w.connecting
  answering := w.answering
  frame := w.frame
  key := w.key
  workers := w.workers
  scanning := ⟨w.scanning.1, Nat.not_lt.mp fun long => short (.inr (.inr long))⟩
  name := by
    have given := w.name.1
    rw [Scale.coarse, Nat.one_le_iff_ne_zero, ne_eq, String.utf8ByteSize_eq_zero_iff] at given
    refine ⟨?_, Nat.le_trans (length_le_utf8ByteSize _) w.name.2⟩
    rw [Scale.exact, Nat.one_le_iff_ne_zero, ne_eq, String.length_eq_zero_iff]
    exact given

/-- Settings between valid addresses are accepted exactly if they keep within their bounds on the coarse scale. That
agrees with the bounds as they are stated unless a duration passes that exceeds its maximum, or a name is refused that
has few characters and many bytes. -/
theorem accepted_iff (addressed : c.Addressed) :
    (Harmless c.problems ↔ c.Within .coarse) ∧
      ((Harmless c.problems ↔ c.Within .exact) ↔
        ¬(c.Within .coarse ∧ c.Overruns) ∧ ¬(c.Within .exact ∧ 64 < c.logging.appName.utf8ByteSize)) := by
  have checked := harmless_problems addressed
  refine ⟨checked, ?_⟩
  rw [checked]
  constructor
  · intro same
    constructor
    · rintro ⟨passes, long⟩
      exact (same.mp passes).not_overruns long
    · rintro ⟨kept, long⟩
      exact Nat.not_lt.mpr (same.mpr kept).name.2 long
  · rintro ⟨short, spelled⟩
    constructor
    · intro passes
      exact passes.exact fun long => short ⟨passes, long⟩
    · intro kept
      exact kept.coarse (Nat.not_lt.mp fun long => spelled ⟨kept, long⟩)

theorem within_exact_default : Within .exact {} where
  connections := by decide
  handshake := ⟨by decide, show 30 * second ≤ 300 * second by decide⟩
  shutdown := ⟨by decide, show 10 * second ≤ 60 * second by decide⟩
  datagrams := nofun
  connecting := by decide
  answering := by decide
  frame := by decide
  key := nofun
  workers := by decide
  scanning := ⟨by decide, show 5 * millisecond ≤ 1 * second by decide⟩
  name := ⟨show 1 ≤ "gamewire".length by decide, show "gamewire".length ≤ 64 by decide⟩

/-- The default settings but for the time that a handshake may take. -/
def lasting (duration : Nat) : Config := { server := { handshakeTimeout := duration } }

def named (name : String) : Config := { logging := { appName := name } }

theorem addressed_default : Addressed {} := ⟨by decide, by decide⟩

theorem addressed_lasting (duration : Nat) : (lasting duration).Addressed :=
  ⟨addressed_default.listens, addressed_default.connects⟩

theorem addressed_named (name : String) : (named name).Addressed :=
  ⟨addressed_default.listens, addressed_default.connects⟩

theorem within_named {s : Scale} {name : String} (others : Within s {}) :
    (named name).Within s ↔ 1 ≤ s.size name ∧ s.size name ≤ 64 :=
  ⟨fun w => w.name, fun given => { others with name := given }⟩

def repeated (n : Nat) (c : Char) : String := String.ofList (List.replicate n c)

theorem length_repeated (n : Nat) (c : Char) : (repeated n c).length = n := by
  rw [repeated, String.length_ofList, List.length_replicate]

theorem size_repeated (n : Nat) (c : Char) : (repeated n c).utf8ByteSize = n * c.utf8Size := by
  rw [repeated, String.utf8ByteSize_ofList]
  induction n with
  | zero => exact (Nat.zero_mul _).symm
  | succ n ih => rw [List.replicate_succ, String.utf8Len_cons, ih, Nat.succ_mul]

theorem within_coarse_lasting : (lasting (300 * second + 500 * millisecond)).Within .coarse :=
  { within_exact_default.coarse (by decide) with handshake := ⟨by decide, Nat.le_refl 300⟩ }

/-- A handshake may last half a second longer than the longest one. -/
theorem accepted_iff_lasting :
    (lasting (300 * second + 500 * millisecond)).Addressed ∧
      Harmless (lasting (300 * second + 500 * millisecond)).problems := by
  have addressed := addressed_lasting (300 * second + 500 * millisecond)
  exact ⟨addressed, (accepted_iff addressed).1.mpr within_coarse_lasting⟩

/-- A handshake may last longer than the longest one, and a name of 64 accented letters is refused. -/
theorem bounds_missed :
    (∃ c : Config, c.Addressed ∧ Harmless c.problems ∧ ¬c.Within .exact) ∧
      ∃ c : Config, c.Addressed ∧ ¬Harmless c.problems ∧ c.Within .exact := by
  constructor
  · have addressed := addressed_lasting (300 * second + 500 * millisecond)
    refine ⟨_, addressed, (harmless_problems addressed).mpr within_coarse_lasting, ?_⟩
    exact fun kept => kept.not_overruns (.inl (by decide))
  · have addressed := addressed_named (repeated 64 'é')
    refine ⟨_, addressed, ?_, ?_⟩
    · rw [harmless_problems addressed, within_named (within_exact_default.coarse (by decide))]
      simp only [Scale.coarse, size_repeated]
      decide
    · rw [within_named within_exact_default]
      simp only [Scale.exact, length_repeated]
      decide

end PeerLink.Config
