import Mathlib.Data.List.Infix
import Mathlib.Logic.Relation
import Mathlib.Tactic.Common

/-!
# Links

Two parties that exchange messages over two reliable byte streams, one in each direction. What a
party has done on a connection is its `Traffic`; a `Party` is a transition system that keeps to the
framing: the messages that it handles are the first ones of the bytes that it receives, and the
bytes that its end of the connection accepts are those of the messages that it issues. A `Session`
is two such parties of which each has received the first bytes that the other one's end has
accepted. Then either direction is a queue (`Session.Steps.rightward`, `Session.Steps.leftward`):
no message is lost before another one is taken, none is taken twice, and none is made up; and the
queue is empty when nothing is under way (`Session.drained_right`, `Session.drained_left`).
-/

open Relation

/-! ## Queues -/

/-- A queue, and what has been taken out of it. -/
structure Fifo (μ : Type*) where
  content : List μ
  taken : List μ

namespace Fifo

variable {μ : Type*} {q r : Fifo μ} {m : μ} {ms put put' taken taken' : List μ}

inductive Step : Fifo μ → Fifo μ → Prop
  | put (q : Fifo μ) (m : μ) : Step q ⟨q.content ++ [m], q.taken⟩
  | take (m : μ) (rest taken : List μ) : Step ⟨m :: rest, taken⟩ ⟨rest, taken ++ [m]⟩

abbrev Steps : Fifo μ → Fifo μ → Prop := ReflTransGen Step

/-- Everything that has been put into the queue. -/
def all (q : Fifo μ) : List μ := q.taken ++ q.content

/-- The queue into which `put` has been put, and out of which `taken` has been taken. -/
def between (put taken : List μ) : Fifo μ := ⟨put.drop taken.length, taken⟩

theorem all_between (h : taken <+: put) : (between put taken).all = put := by
  obtain ⟨rest, rfl⟩ := h
  unfold all between
  rw [List.drop_left]

theorem steps_put (q : Fifo μ) (ms : List μ) : Steps q ⟨q.content ++ ms, q.taken⟩ := by
  induction ms using List.reverseRecOn with
  | nil => rw [List.append_nil]
  | append_singleton ms m ih =>
    rw [← List.append_assoc]
    exact ih.tail (.put _ m)

theorem steps_take (ms rest taken : List μ) : Steps ⟨ms ++ rest, taken⟩ ⟨rest, taken ++ ms⟩ := by
  induction ms generalizing taken with
  | nil =>
    rw [List.append_nil]
    exact .refl
  | cons m ms ih =>
    have hrest := ih (taken ++ [m])
    rw [List.append_assoc] at hrest
    exact ReflTransGen.head (.take m (ms ++ rest) taken) hrest

theorem Step.mono (h : Step q r) : q.taken <+: r.taken ∧ q.all <+: r.all := by
  cases h with
  | put _ m => exact ⟨List.prefix_rfl, ⟨[m], List.append_assoc _ _ _⟩⟩
  | take m rest taken =>
    refine ⟨List.prefix_append _ _, ?_⟩
    unfold all
    rw [List.append_assoc]
    exact List.prefix_rfl

/-- One queue comes from another one just if more has been put into it, and more taken out. -/
theorem steps_iff : Steps q r ↔ q.taken <+: r.taken ∧ q.all <+: r.all := by
  constructor
  · intro h
    induction h with
    | refl => exact ⟨List.prefix_rfl, List.prefix_rfl⟩
    | tail _ h ih => exact ⟨ih.1.trans h.mono.1, ih.2.trans h.mono.2⟩
  · rintro ⟨⟨ms, htaken⟩, ns, hall⟩
    obtain ⟨content, taken⟩ := r
    dsimp only at htaken
    subst htaken
    unfold all at hall
    have hcontent : q.content ++ ns = ms ++ content := by
      simpa only [List.append_assoc, List.append_cancel_left_eq] using hall
    have hput := steps_put q ns
    rw [hcontent] at hput
    exact hput.trans (steps_take ms content q.taken)

theorem content_between_self (put : List μ) : (between put put).content = [] := List.drop_length

theorem steps_between (h : taken <+: put) (h' : taken' <+: put') (hput : put <+: put')
    (htaken : taken <+: taken') : Steps (between put taken) (between put' taken') := by
  refine steps_iff.2 ⟨htaken, ?_⟩
  rw [all_between h, all_between h']
  exact hput

end Fifo

/-! ## Parties -/

/-- What a party has done on a connection: the bytes that it has received and the messages that it
has handled, the messages that it has issued and the bytes that its end has accepted. -/
structure Traffic (β μ : Type*) where
  received : List β
  handled : List μ
  issued : List μ
  accepted : List β

/-- More has been done on the connection. -/
structure Traffic.Extends {β μ : Type*} (x y : Traffic β μ) : Prop where
  handled : x.handled <+: y.handled
  issued : x.issued <+: y.issued

/-- A party, and how it keeps to the framing in those of its states that are `Sound`. -/
structure Party (σ : Type*) {β μ : Type*} (parse : List β → List μ) where
  /-- It does something. -/
  Step : σ → σ → Prop
  Sound : σ → Prop
  /-- The number of connections that it has had. -/
  connections : σ → ℕ
  /-- What it has done on the last one. -/
  traffic : σ → Traffic β μ
  /-- As long as there is no other connection, it goes on with this one. -/
  goesOn : ∀ {s t}, Step s t → connections t = connections s → (traffic s).Extends (traffic t)
  handles : ∀ {s}, Sound s → (traffic s).handled <+: parse (traffic s).received
  issues : ∀ {s}, Sound s → parse (traffic s).accepted <+: (traffic s).issued
  /-- It has room for the message. -/
  Fits : μ → Prop
  handles_all : ∀ {s}, Sound s → (∀ m ∈ parse (traffic s).received, Fits m) →
    (traffic s).handled = parse (traffic s).received
  /-- It does not hold back anything. -/
  Flushed : σ → Prop
  issues_all : ∀ {s}, Sound s → Flushed s → parse (traffic s).accepted = (traffic s).issued

/-! ## Sessions -/

/-- Two parties with a connection between them, that holds the bytes that have been accepted and not
received. -/
structure Session {σ τ β μ : Type*} {parse : List β → List μ} (P : Party σ parse)
    (Q : Party τ parse) where
  left : σ
  right : τ
  leftSound : P.Sound left
  rightSound : Q.Sound right
  toLeft : (P.traffic left).received <+: (Q.traffic right).accepted
  toRight : (Q.traffic right).received <+: (P.traffic left).accepted

namespace Session

variable {σ τ β μ : Type*} {parse : List β → List μ} {P : Party σ parse} {Q : Party τ parse}
  {p q : Session P Q}

/-- One of the two does something, on the same connection. -/
inductive Step (p q : Session P Q) : Prop
  | left (h : P.Step p.left q.left) (same : P.connections q.left = P.connections p.left)
    (other : q.right = p.right)
  | right (h : Q.Step p.right q.right) (same : Q.connections q.right = Q.connections p.right)
    (other : q.left = p.left)

abbrev Steps : Session P Q → Session P Q → Prop := ReflTransGen Step

/-- What is under way from the left to the right, and what has been handled there. -/
def rightward (p : Session P Q) : Fifo μ :=
  .between (P.traffic p.left).issued (Q.traffic p.right).handled

def leftward (p : Session P Q) : Fifo μ :=
  .between (Q.traffic p.right).issued (P.traffic p.left).handled

theorem handled_right (hmono : ∀ {bs cs}, bs <+: cs → parse bs <+: parse cs) (p : Session P Q) :
    (Q.traffic p.right).handled <+: (P.traffic p.left).issued :=
  (Q.handles p.rightSound).trans ((hmono p.toRight).trans (P.issues p.leftSound))

theorem handled_left (hmono : ∀ {bs cs}, bs <+: cs → parse bs <+: parse cs) (p : Session P Q) :
    (P.traffic p.left).handled <+: (Q.traffic p.right).issued :=
  (P.handles p.leftSound).trans ((hmono p.toLeft).trans (Q.issues p.rightSound))

/-- When nothing is held back or under way any more, every message has been handled. -/
theorem drained_right (p : Session P Q) (hflushed : P.Flushed p.left)
    (hall : (Q.traffic p.right).received = (P.traffic p.left).accepted)
    (hfit : ∀ m ∈ (P.traffic p.left).issued, Q.Fits m) :
    (Q.traffic p.right).handled = (P.traffic p.left).issued := by
  have hissued := P.issues_all p.leftSound hflushed
  rw [← hall] at hissued
  exact (Q.handles_all p.rightSound (hissued ▸ hfit)).trans hissued

theorem drained_left (p : Session P Q) (hflushed : Q.Flushed p.right)
    (hall : (P.traffic p.left).received = (Q.traffic p.right).accepted)
    (hfit : ∀ m ∈ (Q.traffic p.right).issued, P.Fits m) :
    (P.traffic p.left).handled = (Q.traffic p.right).issued := by
  have hissued := Q.issues_all p.rightSound hflushed
  rw [← hall] at hissued
  exact (P.handles_all p.leftSound (hissued ▸ hfit)).trans hissued

theorem extends_refl (x : Traffic β μ) : x.Extends x := ⟨List.prefix_rfl, List.prefix_rfl⟩

theorem Step.extends (h : Step p q) : (P.traffic p.left).Extends (P.traffic q.left) ∧
    (Q.traffic p.right).Extends (Q.traffic q.right) := by
  cases h with
  | left h same other => exact ⟨P.goesOn h same, other ▸ extends_refl _⟩
  | right h same other => exact ⟨other ▸ extends_refl _, Q.goesOn h same⟩

/-- What is under way to the right is a queue. -/
theorem Steps.rightward (hmono : ∀ {bs cs}, bs <+: cs → parse bs <+: parse cs) (h : Steps p q) :
    Fifo.Steps p.rightward q.rightward := by
  refine ReflTransGen.lift' Session.rightward (fun p q (h : Step p q) => ?_) _ _ h
  obtain ⟨hleft, hright⟩ := h.extends
  exact Fifo.steps_between (p.handled_right hmono)
    (q.handled_right hmono) hleft.issued hright.handled

theorem Steps.leftward (hmono : ∀ {bs cs}, bs <+: cs → parse bs <+: parse cs) (h : Steps p q) :
    Fifo.Steps p.leftward q.leftward := by
  refine ReflTransGen.lift' Session.leftward (fun p q (h : Step p q) => ?_) _ _ h
  obtain ⟨hleft, hright⟩ := h.extends
  exact Fifo.steps_between (p.handled_left hmono) (q.handled_left hmono) hright.issued hleft.handled

end Session
