import PeerLink.Proofs.Link.Steps

/-!
Requests and answers find each other. Whatever the ends do and in whatever order, a callback only runs on an
answer to its own request, and never twice; a request of the other end never passes for an answer, and an
answer never for a request. This takes requests that are made in time, and messages without frames from
elsewhere.
-/
namespace PeerLink.Link

variable {β σ : Type} {p : Pipeline} {events : List Event}

/-- Both ends before anything is asked. -/
structure Fresh (p : Pipeline) (l : Link β σ) : Prop where
  drained : ∀ r, (l r).Drained p
  replies : ∀ r, (l r).replies = .new r
  made : ∀ r, (l r).made = 0
  wire : ∀ r, (l r).wire = []
  held : ∀ r, (l r).held = []

theorem Fresh.not_outstanding {l : Link β σ} (fresh : Fresh p l) (r : Role) (n : Nat) :
    ¬Outstanding (l r) (l r.other) n := by
  intro outstanding
  cases outstanding with
  | waits pending =>
    rw [fresh.replies] at pending
    cases pending
  | asked sent =>
    rw [fresh.wire] at sent
    cases sent
  | held kept =>
    rw [fresh.held] at kept
    cases kept
  | answered sent =>
    rw [fresh.wire] at sent
    cases sent

theorem Fresh.sound {l : Link β σ} (fresh : Fresh p l) (r : Role) : Sound p r (l r) (l r.other) where
  role := by
    rw [fresh.replies]
    rfl
  counter := by
    rw [fresh.replies, fresh.made]
    rfl
  waits _ n pending := absurd (.waits pending) (fresh.not_outstanding r n)
  asked n _ sent := absurd (.asked sent) (fresh.not_outstanding r n)
  held n _ kept := absurd (.held kept) (fresh.not_outstanding r n)
  answered n _ sent := absurd (.answered sent) (fresh.not_outstanding r n)
  made n outstanding := absurd outstanding (fresh.not_outstanding r n)
  apart n _ outstanding := absurd outstanding (fresh.not_outstanding r n)

theorem Fresh.kept {l : Link β σ} (fresh : Fresh p l) (r : Role) : Kept p [] r (l r) (l r.other) where
  drained := fresh.drained r
  sound := fresh.sound r
  spent := by
    rintro n ⟨_, _, ran⟩
    cases ran
  holds := by
    intro n job kept
    rw [fresh.held] at kept
    cases kept
  answers := by
    intro n frame sent
    rw [fresh.wire] at sent
    cases sent

/-- Whatever two ends ask each other, each treats every frame as what it is. -/
theorem correlated_of_run {encryption : EncryptionKind} {key : Option Bytes} {compression : CompressionKind}
    {base : Pipeline} {pack : Bytes → Except Fault Bytes} {apps : Role → Application β Nat σ} {l l' : Link β σ}
    (built : Pipeline.build encryption key compression = .ok base) (packs : compression.Writes pack)
    (plain : ∀ r, (apps r).Plain (Message.Faithful (base.packedBy pack))) (fresh : Fresh (base.packedBy pack) l)
    (run : Run (Step apps (Message.Faithful (base.packedBy pack)) InTime) l events l') : Correlated events := by
  have truthful := Pipeline.truthful_of_build built packs
  have invariant : (∀ r, Kept (base.packedBy pack) events r (l' r) (l' r.other)) ∧ Correlated events := by
    refine run.invariant (P := fun events l => (∀ r, Kept (base.packedBy pack) events r (l r) (l r.other)) ∧
      Correlated events) ⟨fresh.kept, ?_⟩ ?_
    · intro before e behind split
      simp at split
    · rintro events l e l' ⟨kept, correlated⟩ step
      obtain ⟨kept, fits⟩ := step.kept truthful plain kept
      exact ⟨kept, correlated.snoc fits⟩
  exact invariant.2

/-! ### Runs step by step -/

variable {apps : Role → Application β Nat σ} {sends : Message → Prop} {inTime : Nat → Nat → Prop}
  {before l : Link β σ}

def advance (apps : Role → Application β Nat σ) (l : Link β σ) (r : Role) (command : Command) : Link β σ :=
  ((perform apps l r command).map Prod.snd).getD l

theorem run_advance (run : Run (Step apps sends inTime) before events l) (r : Role) (command : Command) (e : Event)
    (allowed : Allowed sends inTime l r command) (happened : (perform apps l r command).map Prod.fst = some e) :
    Run (Step apps sends inTime) before (events ++ [e]) (advance apps l r command) := by
  refine run.snoc ⟨r, command, allowed, ?_⟩
  obtain ⟨⟨_, l'⟩, performed, rfl⟩ := Option.map_eq_some_iff.mp happened
  rw [advance, performed]
  rfl

def silent : Role → Application Unit Nat Unit := fun _ => {
  handle := fun _ m e => (.ok none, m, e)
  onReply := fun _ _ e => e
  onSync := none
  onRelay := none }

theorem plain_silent (responds : Message → Prop) (r : Role) : (silent r).Plain responds where
  handle _ m e := ⟨none, e, rfl, ⟨rfl, rfl, rfl⟩, rfl, by simp⟩
  onReply _ _ e := ⟨⟨rfl, rfl, rfl⟩, rfl⟩

def opening (r : Role) (p : Pipeline) : Party Unit Unit where
  endpoint := .new (.new r 1 p default none none) {} none ()
  made := 0
  wire := []
  held := []

def start (p : Pipeline) : Link Unit Unit := fun r => opening r p

theorem fresh_start (p : Pipeline) : Fresh p (start p) where
  drained _ := ⟨rfl, rfl, rfl⟩
  replies _ := rfl
  made _ := rfl
  wire _ := rfl
  held _ := rfl

/-- A request without an action is refused, and the refusal runs its callback. -/
theorem correlated_of_run_refused :
    ∃ l, Run (Step silent (Message.Faithful .passthrough) InTime) (start .passthrough)
        [.requested .client, .taken .server (.request 0) (some .notHandled) none,
          .taken .client (.answer 0) (some .replied) (some 0)] l ∧
      Correlated [.requested .client, .taken .server (.request 0) (some .notHandled) none,
        .taken .client (.answer 0) (some .replied) (some 0)] := by
  have none_yet := (fresh_start .passthrough).not_outstanding .client
  have opened : Run (Step silent (Message.Faithful .passthrough) InTime) (start .passthrough) []
      (start .passthrough) := .nil
  have asked := run_advance opened .client (.request (.new 7)) (.requested .client)
    ⟨fun _ set => Message.faithful_of_unpacked (Message.unpacked_of_setReplySlot rfl set),
      fun n outstanding => absurd outstanding (none_yet n)⟩ rfl
  have refused := run_advance asked .server .take (.taken .server (.request 0) (some .notHandled) none)
    trivial rfl
  have answered := run_advance refused .client .take (.taken .client (.answer 0) (some .replied) (some 0))
    trivial rfl
  exact ⟨_, answered, correlated_of_run (rfl : Pipeline.build .none none .none = .ok .passthrough)
    (CompressionKind.writes_compress .none) (plain_silent _) (fresh_start .passthrough) answered⟩

/-! ### Requests that come too late, and frames from elsewhere -/

def reversing : Pipeline := ⟨.reverse, CompressionKind.none.build⟩

theorem encode_reversing (drawn : Draw) (message : Bytes) :
    reversing.encode drawn message = Pipeline.enclose message.reverse :=
  Pipeline.encode_of_active rfl rfl rfl

/-- A message that fits a frame as it is, but not behind a length. -/
structure Bulky (m : Message) : Prop where
  unpacked : m.frame = none
  size : m.size = 65534

def zeros (n : Nat) : Message := ⟨0, 7, 0, List.replicate n 0, headerSize, none⟩

theorem size_zeros (n : Nat) : (zeros n).size = headerSize + n := by
  rw [Message.size, zeros, List.length_replicate]

theorem bulky_zeros : Bulky (zeros 65524) where
  unpacked := rfl
  size := size_zeros 65524

theorem Bulky.setType {m : Message} (bulky : Bulky m) (type : UInt24) : Bulky (m.setType type) := by
  unfold Message.setType
  split
  · exact bulky
  · exact ⟨rfl, bulky.size⟩

theorem Bulky.send {κ : Type} {m : Message} {c : Connection κ} (bulky : Bulky m)
    (pipeline : c.pipeline = reversing) : ∃ fault, c.send m = .error fault := by
  have fits : m.size ≤ maxFrameSize := by
    rw [bulky.size]
    decide
  have long : maxFrameSize < lengthPrefix + (m.header ++ m.body).reverse.length := by
    rw [List.length_reverse, Message.length_append_body, bulky.size]
    decide
  obtain ⟨fault, encoded⟩ : ∃ fault, reversing.encode c.nonces.next.1 (m.header ++ m.body) = .error fault :=
    ⟨_, (encode_reversing _ _).trans (if_pos long)⟩
  have serialized : m.serialize c.pipeline c.nonces.next.1 = .error fault := by
    rw [Message.serialize, bulky.unpacked, Message.toBytes_eq fits, pipeline]
    simp only [bind, Except.bind, encoded]
  refine ⟨fault, ?_⟩
  simp only [Connection.send, Connection.frameOf, serialized, bind, Except.bind]

theorem Bulky.sendWithReply? {m : Message} (bulky : Bulky m) {c : Connection Nat}
    (pipeline : c.pipeline = reversing) (vacant : c.replies.pending = []) (callback : Nat) :
    ∃ fault replies, c.sendWithReply? m callback = some (.error fault, { c with replies }) ∧
      replies.role = c.replies.role ∧ replies.counter = c.replies.counter + 1 ∧ replies.pending = [] := by
  have free : c.replies.isPending (c.replies.role.slot c.replies.counter) = false := by
    rw [ReplyTable.isPending, vacant]
    rfl
  obtain ⟨t, registered, role, counter, pending⟩ := ReplyTable.register?_of_free free callback
  have fits := Role.fits_of_owns (Role.owns_slot c.replies.role c.replies.counter)
  obtain ⟨fault, unsent⟩ := (bulky.setType ⟨_, fits⟩).send (c := { c with replies := t }) pipeline
  refine ⟨fault, t.erase (c.replies.role.slot c.replies.counter), ?_, role, counter, ?_⟩
  · simp only [Connection.sendWithReply?, registered, Message.setReplySlot_eq m fits, bind, Except.bind, unsent]
  · change t.pending.filter _ = []
    rw [pending, vacant]
    simp

/-- A client whose requests have all failed or been cancelled. -/
def idle (c : Connection Nat) (made : Nat) (wire : List (Origin × Bytes)) : Party Unit Unit where
  endpoint := .new { c with
    outbound := []
    replies := ⟨.client, UInt32.ofNat made, [], by simp⟩ } {} none ()
  made := made
  wire := wire
  held := []

/-- What is outstanding of such a client is still under way. -/
theorem asked_of_outstanding_idle {c : Connection Nat} {made n : Nat} {wire : List (Origin × Bytes)}
    (outstanding : Outstanding (idle c made wire) (opening .server p) n) :
    ∃ frame, (.request n, frame) ∈ wire := by
  cases outstanding with
  | waits pending => cases pending
  | asked sent => exact ⟨_, sent⟩
  | held kept => cases kept
  | answered sent => cases sent

variable {m : Message} {c : Connection Nat} {made : Nat} {wire : List (Origin × Bytes)}

theorem Bulky.perform (bulky : Bulky m) (pipeline : c.pipeline = reversing) (server : Party Unit Unit) :
    perform silent (pair .client (idle c made wire) server) .client (.request m) =
      some (.requested .client, pair .client (idle c (made + 1) wire) server) := by
  obtain ⟨fault, ⟨_, _, _, _⟩, requested, rfl, rfl, rfl⟩ := bulky.sendWithReply?
    (c := (idle c made wire).endpoint.connection) pipeline rfl made
  have next : UInt32.ofNat made + 1 = UInt32.ofNat (made + 1) := by
    rw [UInt32.ofNat_add]
    rfl
  simp only [Link.perform, pair_self, pair_other, Option.bind_eq_bind]
  rw [show (idle c made wire).made = made from rfl, requested]
  simp only [Option.bind_some, Party.after, idle, Endpoint.new, next, List.map_nil, List.append_nil]
  rfl

/-- Requests that fail only move the counter on. -/
theorem Bulky.run (bulky : Bulky m) (sent : ∀ m', m'.frame = none → sends m') (pipeline : c.pipeline = reversing)
    {before : Link Unit Unit}
    (run : Run (Step silent sends inTime) before events (pair .client (idle c made wire) (opening .server p)))
    (count : Nat) (timely : ∀ i < count, ∀ n frame, (.request n, frame) ∈ wire → inTime n (made + i)) :
    ∃ events, Run (Step silent sends inTime) before events
      (pair .client (idle c (made + count) wire) (opening .server p)) := by
  induction count with
  | zero => exact ⟨events, run⟩
  | succ count ih =>
    obtain ⟨events, run⟩ := ih (fun i below => timely i (Nat.lt_succ_of_lt below))
    refine ⟨_, run.snoc ⟨.client, .request m,
      ⟨fun _ set => sent _ (Message.unpacked_of_setReplySlot bulky.unpacked set), ?_⟩, bulky.perform pipeline _⟩⟩
    intro n outstanding
    rw [pair_self, pair_other] at outstanding
    obtain ⟨frame, under⟩ := asked_of_outstanding_idle outstanding
    exact timely count (Nat.lt_succ_self count) n frame under

/-- The first request with slot 0 after 512 rounds, backwards and behind its length. -/
def lateRequest : Origin × Bytes := (.request 4294964736, [12, 0, 0, 0, 10, 0, 7, 0, 0, 0, 0, 10])

/-- The request is cancelled while it is under way. 2560 requests later the counter has wrapped and the slot is
taken again, and the answer to the old request runs the new callback. -/
theorem Bulky.wrapped_run (bulky : Bulky m) :
    ∃ l events, Run (Step silent (Message.Faithful reversing) InRound) (start reversing) events l ∧
      .taken .client (.answer 4294964736) (some .replied) (some 4294967296) ∈ events := by
  have faithful (m : Message) (unpacked : m.frame = none) : m.Faithful reversing :=
    Message.faithful_of_unpacked unpacked
  have short (slot : Nat) (m : Message) (set : (Message.new 7).setReplySlot slot = .ok m) : m.Faithful reversing :=
    faithful m (Message.unpacked_of_setReplySlot rfl set)
  have opened : Run (Step silent (Message.Faithful reversing) InRound) (start reversing) []
      (pair .client (idle (.new .client 1 reversing default none none) 0 []) (opening .server reversing)) := by
    have same : start reversing =
        pair .client (idle (.new .client 1 reversing default none none) 0 []) (opening .server reversing) := by
      funext r
      cases r <;> rfl
    exact same ▸ .nil
  obtain ⟨_, worn⟩ := bulky.run faithful rfl opened 4294964736 (by simp)
  have asked := run_advance worn .client (.request (.new 7)) (.requested .client) ⟨short _, by
    intro n outstanding
    obtain ⟨_, under⟩ := asked_of_outstanding_idle outstanding
    cases under⟩ rfl
  have cancelled := run_advance asked .client (.cancel 0) (.cancelled .client) trivial rfl
  have state : advance silent (advance silent (pair .client (idle (.new .client 1 reversing default none none)
        (0 + 4294964736) []) (opening .server reversing)) .client (.request (.new 7))) .client (.cancel 0) =
      pair .client (idle { Connection.new .client 1 reversing ⟨0, 1⟩ none none with pending := 1 } 4294964737
        [lateRequest]) (opening .server reversing) := rfl
  rw [state] at cancelled
  obtain ⟨_, wrapped⟩ := bulky.run faithful rfl cancelled 2559 (by
    intro i below n frame under
    cases List.mem_singleton.mp under
    rw [InRound]
    omega)
  have again := run_advance wrapped .client (.request (.new 7)) (.requested .client) ⟨short _, by
    intro n outstanding
    obtain ⟨_, under⟩ := asked_of_outstanding_idle outstanding
    cases List.mem_singleton.mp under
    change 4294964737 + 2559 < 4294964736 + 8388603
    decide⟩ rfl
  have refused := run_advance again .server .take
    (.taken .server (.request 4294964736) (some .notHandled) none) trivial rfl
  have answered := run_advance refused .client .take
    (.taken .client (.answer 4294964736) (some .replied) (some 4294967296)) trivial rfl
  exact ⟨_, _, answered, by simp⟩

/-- A frame that came without a pipeline, of a message in slot 0. Read backwards, it is in slot 8388603. -/
def foreign : Bytes := [20, 0, 0, 0, 0, 7, 0, 10, 0, 0, 0x80, 0, 5, 0, 7, 0, 0, 0, 0, 18]

def relayed : Message := ⟨0, 7, 10, foreign.drop headerSize, headerSize, some foreign⟩

/-- The slot of the client's request is the one that the message has, so its frame is sent as it is. The server
reads an answer to its own request. -/
theorem relayed_run :
    ∃ l events, Run (Step silent (fun m => m.frame = none ∨ m = relayed) InTime) (start reversing) events l ∧
      .taken .server (.request 0) (some .replied) (some 0) ∈ events := by
  have opened : Run (Step silent (fun m => m.frame = none ∨ m = relayed) InTime) (start reversing) []
      (start reversing) := .nil
  have asked := run_advance opened .server (.request (.new 7)) (.requested .server) ⟨fun _ set =>
    .inl (Message.unpacked_of_setReplySlot rfl set), fun n outstanding =>
      absurd outstanding ((fresh_start reversing).not_outstanding .server n)⟩ rfl
  have unchanged : relayed.setReplySlot 0 = .ok relayed := rfl
  have passed := run_advance asked .client (.request relayed) (.requested .client) ⟨fun _ set =>
    .inr (Except.ok.inj (set.symm.trans unchanged)), by
    intro n outstanding
    cases outstanding with
    | waits pending => cases pending
    | asked sent => cases sent
    | held kept => cases kept
    | answered sent => cases List.mem_singleton.mp sent⟩ rfl
  have taken := run_advance passed .server .take (.taken .server (.request 0) (some .replied) (some 0)) trivial rfl
  exact ⟨_, _, taken, by simp⟩

/-- What the two restrictions are for. Without the one on the counter, a callback runs on the answer to another
request, without the one on frames, a request runs a callback. -/
theorem crossed_runs :
    Pipeline.build .reverse none .none = .ok reversing ∧ Fresh reversing (start reversing) ∧
      (∀ responds r, (silent r).Plain responds) ∧
      (∃ l events, Run (Step silent (Message.Faithful reversing) InRound) (start reversing) events l ∧
        .taken .client (.answer 4294964736) (some .replied) (some 4294967296) ∈ events ∧ ¬Correlated events) ∧
      Message.ofFrame .passthrough foreign = .ok relayed ∧
      ∃ l events, Run (Step silent (fun m => m.frame = none ∨ m = relayed) InTime) (start reversing) events l ∧
        .taken .server (.request 0) (some .replied) (some 0) ∈ events ∧ ¬Correlated events := by
  have apart {e : Event} {events : List Event} (present : e ∈ events) (wrong : ∀ before, ¬e.Fits before) :
      ¬Correlated events := by
    intro correlated
    obtain ⟨before, behind, split⟩ := List.append_of_mem present
    exact wrong before (correlated before e behind split)
  obtain ⟨l, events, run, ran⟩ := bulky_zeros.wrapped_run
  obtain ⟨l', events', run', ran'⟩ := relayed_run
  refine ⟨rfl, fresh_start reversing, plain_silent, ⟨l, events, run, ran, apart ran ?_⟩, rfl,
    l', events', run', ran', apart ran' ?_⟩
  · intro before fits
    simp [Event.Fits] at fits
  · intro before fits
    simp [Event.Fits] at fits

end PeerLink.Link
