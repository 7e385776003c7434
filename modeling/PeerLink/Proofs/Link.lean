import PeerLink.Proofs.Link.Routing
import PeerLink.Proofs.Run

/-!
Two ends of a connection that ask each other. Each end registers its requests one after the other, so a request
is known by its number, and so is the answer to it. The channels lose nothing and keep the order; a call that
the host makes later waits with the request that it is for. A request that an action makes is a step of its
own before the one that takes the request in, a request that a callback makes is one after it.
-/
namespace PeerLink

def Role.other : Role → Role
  | .server => .client
  | .client => .server

@[simp] theorem Role.other_other (r : Role) : r.other.other = r := by cases r <;> rfl

theorem Role.eq_or_other (r q : Role) : q = r ∨ q = r.other := by
  cases r <;> cases q <;> simp [Role.other]

theorem Role.other_ne (r : Role) : r.other ≠ r := by cases r <;> decide

theorem Role.not_owns_of_other {r : Role} {slot : Nat} (owned : r.other.owns slot = true) :
    r.owns slot = false := by
  cases own : r.owns slot with
  | false => rfl
  | true => exact absurd (Role.eq_of_owns owned own) r.other_ne

namespace Link

/-- What a frame is: a request of the end that has sent it, or the answer to a request of the other end. -/
inductive Origin where
  | request (number : Nat)
  | answer (number : Nat)
  deriving DecidableEq

def Origin.number : Origin → Nat
  | request n => n
  | answer n => n

/-- One end, and what it has sent that the other end has not taken in. -/
structure Party (β σ : Type) where
  /-- Callbacks are known by the number of their request. -/
  endpoint : Endpoint β Nat σ
  /-- Requests registered so far. -/
  made : Nat
  /-- Frames under way, the oldest first. -/
  wire : List (Origin × Bytes)
  /-- Calls that the host has been handed and has not made, with the request that they are for. -/
  held : List (Nat × Job β)

namespace Party

variable {β σ : Type}

abbrev replies (x : Party β σ) : ReplyTable Nat := x.endpoint.connection.replies

/-- What an end has become, with what it has queued and parked on that occasion. -/
def after (x : Party β σ) (origin : Origin) (e : Endpoint β Nat σ) : Party β σ where
  endpoint := { e with connection := { e.connection with outbound := [] }, parked := [] }
  made := x.made
  wire := x.wire ++ e.connection.outbound.map (origin, ·)
  held := x.held ++ e.parked.map (origin.number, ·)

def cancel (x : Party β σ) (slot : Nat) : Party β σ :=
  { x with endpoint := { x.endpoint with
      connection := { x.endpoint.connection with replies := (x.replies.cancel slot).2 } } }

/-- Whatever it has queued is under way, and its host has whatever it has parked. -/
structure Drained (p : Pipeline) (x : Party β σ) : Prop where
  pipeline : x.endpoint.connection.pipeline = p
  outbound : x.endpoint.connection.outbound = []
  parked : x.endpoint.parked = []

variable {x : Party β σ} {origin : Origin} {e : Endpoint β Nat σ}

theorem mem_wire_after {entry : Origin × Bytes} :
    entry ∈ (x.after origin e).wire ↔
      entry ∈ x.wire ∨ ∃ frame ∈ e.connection.outbound, entry = (origin, frame) := by
  simp [after, eq_comm]

theorem mem_held_after {entry : Nat × Job β} :
    entry ∈ (x.after origin e).held ↔ entry ∈ x.held ∨ ∃ job ∈ e.parked, entry = (origin.number, job) := by
  simp [after, eq_comm]

end Party

end Link

abbrev Link (β σ : Type) := Role → Link.Party β σ

namespace Link

inductive Event where
  | requested (side : Role)
  | cancelled (side : Role)
  /-- It took in a frame; a callback may have run. -/
  | taken (side : Role) (origin : Origin) (route : Option Route) (ran : Option Nat)
  | called (side : Role) (number : Nat)
  deriving DecidableEq

variable {β σ : Type}

/-- A request of the first end that has left a trace: its callback waits, it is under way, its call is still to
be made, or its answer is under way. -/
inductive Outstanding (mine theirs : Party β σ) (n : Nat) : Prop
  | waits {slot} (pending : (slot, n) ∈ mine.replies.pending)
  | asked {frame} (sent : (.request n, frame) ∈ mine.wire)
  | held {job} (kept : (n, job) ∈ theirs.held)
  | answered {frame} (sent : (.answer n, frame) ∈ theirs.wire)

/-- What an end can do. A call is made for any of the requests that are held. -/
inductive Command where
  | request (m : Message)
  | cancel (slot : Nat)
  | take
  | call (index : Nat)

/-- The ends seen from one of them. -/
def pair (r : Role) (mine theirs : Party β σ) : Link β σ := fun q => if q = r then mine else theirs

@[simp] theorem pair_self {r : Role} {mine theirs : Party β σ} : pair r mine theirs r = mine := if_pos rfl

@[simp] theorem pair_other {r : Role} {mine theirs : Party β σ} : pair r mine theirs r.other = theirs :=
  if_neg r.other_ne

/-- What happens when an end does something, if it can. -/
def perform (apps : Role → Application β Nat σ) (l : Link β σ) (r : Role) : Command → Option (Event × Link β σ)
  | .request m => do
    let (_, connection) ← (l r).endpoint.connection.sendWithReply? m (l r).made
    let mine := (l r).after (.request (l r).made) { (l r).endpoint with connection }
    return (.requested r, pair r { mine with made := (l r).made + 1 } (l r.other))
  | .cancel slot => some (.cancelled r, pair r ((l r).cancel slot) (l r.other))
  | .take =>
    match (l r.other).wire with
    | [] => none
    | (origin, frame) :: wire =>
      let (route, ran, e) := (l r).endpoint.take (apps r) frame
      some (.taken r origin route ran,
        pair r ((l r).after (.answer origin.number) e) { l r.other with wire })
  | .call index => do
    let (n, job) ← (l r).held[index]?
    let mine := { l r with held := (l r).held.eraseIdx index }
    return (.called r n, pair r (mine.after (.answer n) ((l r).endpoint.invoke (apps r) job)) (l r.other))

/-- The slot that a request gets, as long as it is free. -/
def slotOf (r : Role) (n : Nat) : Nat := r.slot (UInt32.ofNat n)

/-- What holds when a request is made: it is of the wanted kind once it has its slot, and in time for all that are
outstanding. -/
def Allowed (sends : Message → Prop) (inTime : (earlier now : Nat) → Prop) (l : Link β σ) (r : Role) :
    Command → Prop
  | .request m =>
    (∀ m', m.setReplySlot (slotOf r (l r).made) = .ok m' → sends m') ∧
      ∀ n, Outstanding (l r) (l r.other) n → inTime n (l r).made
  | _ => True

def Step (apps : Role → Application β Nat σ) (sends : Message → Prop) (inTime : (earlier now : Nat) → Prop)
    (l : Link β σ) (e : Event) (l' : Link β σ) : Prop :=
  ∃ r command, Allowed sends inTime l r command ∧ perform apps l r command = some (e, l')

/-! ### Slots -/

def InRound (earlier now : Nat) : Prop := now < earlier + 8388603

/-- Early enough that the slot has not come round. The round in which the counter wraps has only 2560 slots. -/
def InTime (earlier now : Nat) : Prop :=
  InRound earlier now ∧ (512 * 8388603 ≤ earlier % 4294967296 → now < earlier + 2560)

theorem mod_ne_of_near {a b : Nat} (order : a < b) (near : b < a + 8388603) :
    a % 8388603 ≠ b % 8388603 := by
  omega

/-- Where the counter wraps, the later number is early in the first round. The earlier one is in the round that is
cut short, or further on in the one before. -/
theorem mod_ne_of_wrap {a b : Nat} (word : a < 4294967296) (near : b + 4294967296 < a + 8388603)
    (short : 512 * 8388603 ≤ a → b + 4294967296 < a + 2560) : a % 8388603 ≠ b % 8388603 := by
  have first : b % 8388603 = b := by omega
  by_cases cut : 512 * 8388603 ≤ a
  · have last : a % 8388603 = a - 512 * 8388603 := by omega
    have few := short cut
    omega
  · have before : a % 8388603 = a - 511 * 8388603 := by omega
    omega

theorem slotOf_ne {r : Role} {earlier now : Nat} (order : earlier < now) (timely : InTime earlier now) :
    slotOf r earlier ≠ slotOf r now := by
  have width : r.span = 8388603 := by cases r <;> rfl
  obtain ⟨near, short⟩ := timely
  rw [InRound] at near
  simp only [slotOf, Role.slot, UInt32.toNat_ofNat', width, ne_eq, Nat.add_left_cancel_iff]
  by_cases unwrapped : now / 4294967296 = earlier / 4294967296
  · apply mod_ne_of_near
    · omega
    · omega
  · apply mod_ne_of_wrap
    · omega
    · omega
    · intro cut
      have few := short cut
      omega

/-! ### The requests of one end -/

/-- What holds of the requests of the first end, wherever they are: all that is under way carries their slots,
and no two of them that are outstanding have the same. -/
structure Sound (p : Pipeline) (r : Role) (mine theirs : Party β σ) : Prop where
  role : mine.replies.role = r
  counter : mine.replies.counter = UInt32.ofNat mine.made
  waits : ∀ slot n, (slot, n) ∈ mine.replies.pending → slot = slotOf r n
  asked : ∀ n frame, (.request n, frame) ∈ mine.wire → p.Carries frame (slotOf r n)
  held : ∀ n job, (n, job) ∈ theirs.held → job.message.replySlot = some (slotOf r n)
  answered : ∀ n frame, (.answer n, frame) ∈ theirs.wire → p.Carries frame (slotOf r n)
  made : ∀ n, Outstanding mine theirs n → n < mine.made
  apart : ∀ n k, Outstanding mine theirs n → Outstanding mine theirs k → slotOf r n = slotOf r k → n = k

variable {p : Pipeline} {r : Role} {mine theirs mine' theirs' : Party β σ}

/-- Requests of the first end have moved on or come to their end, and calls and answers have come forth for those
that were outstanding. -/
structure Moves (p : Pipeline) (r : Role) (mine theirs mine' theirs' : Party β σ) : Prop where
  role : mine'.replies.role = mine.replies.role
  counter : mine'.replies.counter = mine.replies.counter
  made : mine'.made = mine.made
  waits : ∀ entry ∈ mine'.replies.pending, entry ∈ mine.replies.pending
  asked : ∀ n frame, (.request n, frame) ∈ mine'.wire → (.request n, frame) ∈ mine.wire
  held : ∀ n job, (n, job) ∈ theirs'.held → (n, job) ∈ theirs.held ∨
    Outstanding mine theirs n ∧ job.message.replySlot = some (slotOf r n)
  answered : ∀ n frame, (.answer n, frame) ∈ theirs'.wire → (.answer n, frame) ∈ theirs.wire ∨
    Outstanding mine theirs n ∧ p.Carries frame (slotOf r n)

theorem Moves.outstanding (moves : Moves p r mine theirs mine' theirs') {n : Nat}
    (later : Outstanding mine' theirs' n) : Outstanding mine theirs n := by
  cases later with
  | waits pending => exact .waits (moves.waits _ pending)
  | asked sent => exact .asked (moves.asked n _ sent)
  | held kept =>
    rcases moves.held n _ kept with old | ⟨outstanding, -⟩
    · exact .held old
    · exact outstanding
  | answered sent =>
    rcases moves.answered n _ sent with old | ⟨outstanding, -⟩
    · exact .answered old
    · exact outstanding

theorem Sound.move (sound : Sound p r mine theirs) (moves : Moves p r mine theirs mine' theirs') :
    Sound p r mine' theirs' where
  role := moves.role.trans sound.role
  counter := by rw [moves.counter, moves.made, sound.counter]
  waits := by
    intro slot n pending
    exact sound.waits slot n (moves.waits _ pending)
  asked := by
    intro n frame sent
    exact sound.asked n frame (moves.asked n frame sent)
  held := by
    intro n job kept
    rcases moves.held n job kept with old | ⟨-, carried⟩
    · exact sound.held n job old
    · exact carried
  answered := by
    intro n frame sent
    rcases moves.answered n frame sent with old | ⟨-, carries⟩
    · exact sound.answered n frame old
    · exact carries
  made := by
    intro n outstanding
    rw [moves.made]
    exact sound.made n (moves.outstanding outstanding)
  apart := by
    intro n k first second
    exact sound.apart n k (moves.outstanding first) (moves.outstanding second)

/-- A new request that comes in time has a slot for itself. -/
theorem Sound.request (sound : Sound p r mine theirs)
    (timely : ∀ n, Outstanding mine theirs n → InTime n mine.made)
    (role : mine'.replies.role = mine.replies.role)
    (counter : mine'.replies.counter = mine.replies.counter + 1) (made : mine'.made = mine.made + 1)
    (waits : ∀ entry ∈ mine'.replies.pending, entry ∈ mine.replies.pending ∨
      entry = (slotOf r mine.made, mine.made))
    (asked : ∀ n frame, (.request n, frame) ∈ mine'.wire → (.request n, frame) ∈ mine.wire ∨
      n = mine.made ∧ p.Carries frame (slotOf r mine.made)) : Sound p r mine' theirs := by
  have before : ∀ n, Outstanding mine' theirs n → Outstanding mine theirs n ∨ n = mine.made := by
    intro n outstanding
    cases outstanding with
    | waits pending =>
      rcases waits _ pending with old | new
      · exact .inl (.waits old)
      · exact .inr (Prod.mk.inj new).2
    | asked sent =>
      rcases asked n _ sent with old | ⟨new, -⟩
      · exact .inl (.asked old)
      · exact .inr new
    | held kept => exact .inl (.held kept)
    | answered sent => exact .inl (.answered sent)
  have fresh : ∀ n, Outstanding mine theirs n → slotOf r n ≠ slotOf r mine.made := by
    intro n outstanding
    exact slotOf_ne (sound.made n outstanding) (timely n outstanding)
  constructor
  case role => exact role.trans sound.role
  case counter =>
    rw [counter, made, sound.counter, UInt32.ofNat_add]
    rfl
  case waits =>
    intro slot n pending
    rcases waits _ pending with old | new
    · exact sound.waits slot n old
    · cases new
      rfl
  case asked =>
    intro n frame sent
    rcases asked n frame sent with old | ⟨rfl, carries⟩
    · exact sound.asked n frame old
    · exact carries
  case held => exact sound.held
  case answered => exact sound.answered
  case made =>
    intro n outstanding
    rw [made]
    rcases before n outstanding with old | rfl
    · exact Nat.lt_succ_of_lt (sound.made n old)
    · exact Nat.lt_succ_self _
  case apart =>
    intro n k first second same
    rcases before n first with first | rfl
    · rcases before k second with second | rfl
      · exact sound.apart n k first second same
      · exact absurd same (fresh n first)
    · rcases before k second with second | rfl
      · exact absurd same.symm (fresh k second)
      · rfl

end Link

end PeerLink
