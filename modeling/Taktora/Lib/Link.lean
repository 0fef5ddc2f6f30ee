import Taktora.Lib.Run

/-- One end of a link. It queues what it has to send, answers what it receives, and notices that time passes. -/
structure Party (σ μ τ ε π : Type) where
  outbox : σ → List μ
  flush : σ → σ
  receives : σ → μ → τ → Except π (List ε × σ) → Prop
  ticks : σ → τ → List ε → σ → Prop
  outbox_flush : ∀ s, outbox (flush s) = []

/-- Two parties and the messages on the wire, oldest first. -/
structure Link (σ μ : Type) where
  near : σ
  far : σ
  toFar : List μ
  toNear : List μ

variable {σ μ τ ε π : Type}

namespace Party

/-- Whatever the time, the party answers the message with these events and messages. -/
def Answers (P : Party σ μ τ ε π) (s : σ) (m : μ) (events : List ε) (sent : List μ) (Q : σ → Prop) : Prop :=
  ∀ now result, P.receives s m now result →
    ∃ s', result = .ok (events, s') ∧ P.outbox s' = P.outbox s ++ sent ∧ Q s'

/-- The property concerns neither the outbox nor the clock. -/
structure Keeps (P : Party σ μ τ ε π) (Q : σ → Prop) : Prop where
  flush : ∀ s, Q s → Q (P.flush s)
  tick : ∀ s now events s', Q s → P.ticks s now events s' → events = [] ∧ P.outbox s' = P.outbox s ∧ Q s'

end Party

namespace Link

inductive Action (μ τ : Type) where
  | flushNear
  | flushFar
  | deliverFar (message : μ) (now : τ)
  | deliverNear (message : μ) (now : τ)
  | loseFar (message : μ)
  | loseNear (message : μ)
  | tickNear (now : τ)
  | tickFar (now : τ)

namespace Action

def isTick : Action μ τ → Bool
  | .tickNear _ | .tickFar _ => true
  | _ => false

def isLoss : Action μ τ → Bool
  | .loseNear _ | .loseFar _ => true
  | _ => false

def isFar : Action μ τ → Bool
  | .deliverFar _ _ | .tickFar _ => true
  | _ => false

end Action

/-- One action on the link with the events it raised. The wires keep the order of the messages but may lose them. -/
inductive Step (P : Party σ μ τ ε π) : Link σ μ → Action μ τ × List ε → Link σ μ → Prop where
  | flushNear {near far toFar toNear} (queued : P.outbox near ≠ []) :
      Step P ⟨near, far, toFar, toNear⟩ (.flushNear, []) ⟨P.flush near, far, toFar ++ P.outbox near, toNear⟩
  | flushFar {near far toFar toNear} (queued : P.outbox far ≠ []) :
      Step P ⟨near, far, toFar, toNear⟩ (.flushFar, []) ⟨near, P.flush far, toFar, toNear ++ P.outbox far⟩
  | deliverFar {near far far' m toFar toNear now events} (received : P.receives far m now (.ok (events, far'))) :
      Step P ⟨near, far, m :: toFar, toNear⟩ (.deliverFar m now, events) ⟨near, far', toFar, toNear⟩
  | deliverNear {near near' far m toFar toNear now events} (received : P.receives near m now (.ok (events, near'))) :
      Step P ⟨near, far, toFar, m :: toNear⟩ (.deliverNear m now, events) ⟨near', far, toFar, toNear⟩
  | loseFar {near far m toFar toNear} :
      Step P ⟨near, far, m :: toFar, toNear⟩ (.loseFar m, []) ⟨near, far, toFar, toNear⟩
  | loseNear {near far m toFar toNear} :
      Step P ⟨near, far, toFar, m :: toNear⟩ (.loseNear m, []) ⟨near, far, toFar, toNear⟩
  | tickNear {near near' far toFar toNear now events} (ticked : P.ticks near now events near') :
      Step P ⟨near, far, toFar, toNear⟩ (.tickNear now, events) ⟨near', far, toFar, toNear⟩
  | tickFar {near far far' toFar toNear now events} (ticked : P.ticks far now events far') :
      Step P ⟨near, far, toFar, toNear⟩ (.tickFar now, events) ⟨near, far', toFar, toNear⟩

variable (P : Party σ μ τ ε π) (l : Link σ μ)

def ReliableStep (call : Action μ τ × List ε) (l' : Link σ μ) : Prop :=
  Step P l call l' ∧ call.1.isLoss = false

def farEvents (history : List (Action μ τ × List ε)) : List ε :=
  history.flatMap fun call => if call.1.isFar then call.2 else []

def nearEvents (history : List (Action μ τ × List ε)) : List ε :=
  history.flatMap fun call => if call.1.isFar then [] else call.2

def progress (history : List (Action μ τ × List ε)) : Nat := history.countP fun call => !call.1.isTick

theorem farEvents_append (history later : List (Action μ τ × List ε)) :
    farEvents (history ++ later) = farEvents history ++ farEvents later := List.flatMap_append

section

variable (history : List (Action μ τ × List ε))
include history

variable (a : Action μ τ) (events : List ε)

theorem farEvents_snoc :
    farEvents (history ++ [(a, events)]) = farEvents history ++ if a.isFar then events else [] := by
  simp [farEvents]

theorem nearEvents_snoc :
    nearEvents (history ++ [(a, events)]) = nearEvents history ++ if a.isFar then [] else events := by
  simp [nearEvents]

theorem progress_snoc : progress (history ++ [(a, events)]) = progress history + if a.isTick then 0 else 1 := by
  cases tick : a.isTick <;> simp [progress, tick]

end

def forward : List μ := l.toFar ++ P.outbox l.near

def backward : List μ := l.toNear ++ P.outbox l.far

def Quiescent : Prop := l.forward P = [] ∧ l.backward P = []

def onWire : Nat := l.toFar.length + l.toNear.length

/-- Whatever is delivered next is received without a failure. -/
structure Safe (P : Party σ μ τ ε π) (l : Link σ μ) : Prop where
  far : ∀ m rest now result, l.toFar = m :: rest → P.receives l.far m now result → ∃ answer, result = .ok answer
  near : ∀ m rest now result, l.toNear = m :: rest → P.receives l.near m now result → ∃ answer, result = .ok answer

theorem loses_far (near far : σ) (lost toFar toNear : List μ) :
    Run (Step P) ⟨near, far, lost ++ toFar, toNear⟩ (lost.map fun m => (.loseFar m, []))
      ⟨near, far, toFar, toNear⟩ := by
  induction lost with
  | nil => exact .nil
  | cons m lost ih => exact (Run.snoc .nil .loseFar).trans ih

theorem farEvents_lost (lost : List μ) :
    farEvents (lost.map fun m => ((.loseFar m, []) : Action μ τ × List ε)) = [] := by
  induction lost with
  | nil => rfl
  | cons m lost ih => exact ih

end Link
