import Messi.Base.Link
import Messi.Base.Trace

/-!
# Heartbeats

One party to a connection sends a ping when no ping of its own waits for a pong, and the other one
answers pings with pongs. Since both directions of the connection are queues, every pong that comes
has its ping, and there is never more than one token about: either no ping waits, or the ping is
under way, or it has not been answered, or its pong is under way (`Session.token`).
-/

open Relation Trace

/-! ## Beats -/

/-- A ping that is sent, and a pong that is handled. -/
inductive Beat where
  | ping
  | pong
  deriving DecidableEq

namespace Beat

/-- The last beat is a ping. -/
def waits : List Beat → Bool
  | .ping :: _ => true
  | _ => false

def pings (bs : List Beat) : ℕ := bs.count .ping

def pongs (bs : List Beat) : ℕ := bs.count .pong

/-- A ping is sent only when none waits. -/
def Prompt (bs : List Beat) (b : Beat) : Prop := b = .ping → waits bs = false

/-- A pong comes after its ping. -/
def Due (bs : List Beat) (b : Beat) : Prop := b = .pong → pongs bs < pings bs

variable {b : Beat} {bs cs : List Beat}

@[simp] theorem pings_ping (bs : List Beat) : pings (.ping :: bs) = pings bs + 1 :=
  List.count_cons_self

@[simp] theorem pings_pong (bs : List Beat) : pings (.pong :: bs) = pings bs :=
  List.count_cons_of_ne (by decide)

@[simp] theorem pongs_ping (bs : List Beat) : pongs (.ping :: bs) = pongs bs :=
  List.count_cons_of_ne (by decide)

@[simp] theorem pongs_pong (bs : List Beat) : pongs (.pong :: bs) = pongs bs + 1 :=
  List.count_cons_self

@[simp] theorem waits_ping (bs : List Beat) : waits (.ping :: bs) = true := rfl

@[simp] theorem waits_pong (bs : List Beat) : waits (.pong :: bs) = false := rfl

/-- Pings and pongs alternate, so one ping waits at most. -/
theorem balance (hp : Always Prompt bs) (hd : Always Due bs) :
    pings bs = pongs bs + (waits bs).toNat := by
  induction bs with
  | nil => rfl
  | cons b bs ih =>
    have hrest := ih hp.2 hd.2
    cases b with
    | ping =>
      have hnone : waits bs = false := hp.1 rfl
      simp [hrest, hnone]
    | pong =>
      have hlt : pongs bs < pings bs := hd.1 rfl
      have hone := Bool.toNat_le (waits bs)
      simp only [pings_pong, pongs_pong, waits_pong, Bool.toNat_false]
      omega

theorem pings_mono (h : bs <:+ cs) : pings bs ≤ pings cs := h.sublist.count_le _

/-- As long as there are not more pongs than there were pings, they all come after their pings. -/
theorem due_extend (h : Always Due bs) (hl : bs <:+ cs) (hle : pongs cs ≤ pings bs) :
    Always Due cs := by
  obtain ⟨evs, rfl⟩ := hl
  induction evs with
  | nil => exact h
  | cons b evs ih =>
    rw [List.cons_append] at hle ⊢
    cases b with
    | ping => exact ⟨nofun, ih (by simpa using hle)⟩
    | pong =>
      rw [pongs_pong] at hle
      have hmono := pings_mono (List.suffix_append evs bs)
      exact ⟨fun _ => (Nat.lt_of_succ_le hle).trans_le hmono, ih (Nat.le_of_succ_le hle)⟩

end Beat

/-! ## The beats of a trace -/

section

variable {α μ : Type*} {begins : α → Bool} {beat : α → Option Beat} {l l' evs : List α} {e : α}
  {b : Beat}

/-- The beats since the last event that begins anew. -/
def beatsOf (begins : α → Bool) (beat : α → Option Beat) : List α → List Beat
  | [] => []
  | e :: l => if begins e then [] else (beat e).toList ++ beatsOf begins beat l

theorem beatsOf_none (hbegins : begins e = false) (hbeat : beat e = none) :
    beatsOf begins beat (e :: l) = beatsOf begins beat l := by
  rw [beatsOf, hbegins, hbeat]
  rfl

theorem beatsOf_some (hbegins : begins e = false) (hbeat : beat e = some b) :
    beatsOf begins beat (e :: l) = b :: beatsOf begins beat l := by
  rw [beatsOf, hbegins, hbeat]
  rfl

theorem beatsOf_still (h : ∀ e ∈ evs, begins e = false ∧ beat e = none) :
    beatsOf begins beat (evs ++ l) = beatsOf begins beat l := by
  induction evs with
  | nil => rfl
  | cons e evs ih =>
    obtain ⟨hbegins, hbeat⟩ := h e List.mem_cons_self
    rw [List.cons_append, beatsOf_none hbegins hbeat]
    exact ih fun e' he' => h e' (List.mem_cons_of_mem e he')

/-- Unless something begins anew, beats are added only. -/
theorem beatsOf_mono (hl : l <:+ l') (hn : l'.countP begins = l.countP begins) :
    beatsOf begins beat l <:+ beatsOf begins beat l' := by
  obtain ⟨evs, rfl⟩ := hl
  have hnone := none_of_countP hn
  clear hn
  induction evs with
  | nil => exact List.suffix_rfl
  | cons e evs ih =>
    rw [List.cons_append, beatsOf, hnone e List.mem_cons_self]
    have hrest := ih fun e' he' => hnone e' (List.mem_cons_of_mem e he')
    exact hrest.trans (List.suffix_append _ _)

theorem beatsOf_prompt (h : Always (fun l e => beat e = some .ping →
    Beat.waits (beatsOf begins beat l) = false) l) :
    Always Beat.Prompt (beatsOf begins beat l) := by
  induction l with
  | nil => trivial
  | cons e l ih =>
    have hrest := ih h.2
    have hping := h.1
    unfold beatsOf
    split_ifs
    · trivial
    · cases hbeat : beat e with
      | none => exact hrest
      | some b =>
        refine ⟨?_, hrest⟩
        rintro rfl
        exact hping hbeat

/-- The beats of one kind are the messages of one kind that the trace tells of. -/
theorem count_beatsOf {tells : List α → α → List μ} {f : List α → List μ} {p : μ → Bool}
    (hf : Collects begins tells f)
    (h : ∀ l e, begins e = false → (tells l e).countP p = (beat e).toList.count b) (l : List α) :
    (beatsOf begins beat l).count b = (f l).countP p := by
  induction l with
  | nil =>
    rw [hf.nil]
    rfl
  | cons e l ih =>
    rw [beatsOf, hf.cons]
    split_ifs with hbegins
    · rfl
    · rw [List.count_append, List.countP_append, ih, h l e (Bool.eq_false_iff.2 hbegins),
        Nat.add_comm]

end

/-! ## Parties -/

/-- A party sends pings, and knows whether the last one waits for its pong. -/
structure Pinger {σ β μ : Type*} {parse : List β → List μ} (P : Party σ parse)
    (isPing isPong : μ → Bool) where
  /-- The pings that it has sent on its last connection, and the pongs that it has handled. -/
  beats : σ → List Beat
  pings : ∀ {s}, P.Sound s → Beat.pings (beats s) = (P.traffic s).issued.countP isPing
  pongs : ∀ {s}, P.Sound s → Beat.pongs (beats s) = (P.traffic s).handled.countP isPong
  prompt : ∀ {s}, P.Sound s → Always Beat.Prompt (beats s)
  goesOn : ∀ {s t}, P.Step s t → P.connections t = P.connections s → beats s <:+ beats t

/-- A party answers pings only. -/
def Party.Answers {σ β μ : Type*} {parse : List β → List μ} (Q : Party σ parse)
    (isPing isPong : μ → Bool) : Prop :=
  ∀ {s}, Q.Sound s →
    (Q.traffic s).issued.countP isPong ≤ (Q.traffic s).handled.countP isPing

/-- The pings that a party has handled and not answered. -/
def Party.unanswered {σ β μ : Type*} {parse : List β → List μ} (Q : Party σ parse)
    (isPing isPong : μ → Bool) (s : σ) : ℕ :=
  (Q.traffic s).handled.countP isPing - (Q.traffic s).issued.countP isPong

/-! ## The token -/

theorem Fifo.countP_between {μ : Type*} {put taken : List μ} (h : taken <+: put) (p : μ → Bool) :
    taken.countP p + (between put taken).content.countP p = put.countP p := by
  obtain ⟨rest, rfl⟩ := h
  unfold between
  rw [List.drop_left, List.countP_append]

namespace Session

variable {σ τ β μ : Type*} {parse : List β → List μ} {P : Party σ parse} {Q : Party τ parse}
  {isPing isPong : μ → Bool} {p q : Session P Q}

/-- The pongs that have been handled were issued for pings that had been sent. -/
theorem pongs_le (hmono : ∀ {bs cs}, bs <+: cs → parse bs <+: parse cs)
    (hQ : Q.Answers isPing isPong) (p : Session P Q) :
    (P.traffic p.left).handled.countP isPong ≤ (Q.traffic p.right).issued.countP isPong ∧
      (Q.traffic p.right).issued.countP isPong ≤ (Q.traffic p.right).handled.countP isPing ∧
      (Q.traffic p.right).handled.countP isPing ≤ (P.traffic p.left).issued.countP isPing :=
  ⟨(p.handled_left hmono).sublist.countP_le, hQ p.rightSound,
    (p.handled_right hmono).sublist.countP_le⟩

theorem Step.due (hmono : ∀ {bs cs}, bs <+: cs → parse bs <+: parse cs)
    (X : Pinger P isPing isPong) (hQ : Q.Answers isPing isPong) (h : Step p q)
    (hp : Always Beat.Due (X.beats p.left)) : Always Beat.Due (X.beats q.left) := by
  cases h with
  | left h same other =>
    refine Beat.due_extend hp (X.goesOn h same) ?_
    obtain ⟨hpongs, -, -⟩ := q.pongs_le hmono hQ
    obtain ⟨-, hanswered, hpings⟩ := p.pongs_le hmono hQ
    rw [other] at hpongs
    rw [X.pongs q.leftSound, X.pings p.leftSound]
    -- What the other one has issued by now was for pings that were sent before this step.
    exact hpongs.trans (hanswered.trans hpings)
  | right h same other =>
    rw [other]
    exact hp

theorem Steps.connections (h : Steps p q) : P.connections q.left = P.connections p.left := by
  induction h with
  | refl => rfl
  | tail _ hstep ih =>
    cases hstep with
    | left h same other => exact same.trans ih
    | right h same other => exact (congrArg P.connections other).trans ih

theorem Steps.due (hmono : ∀ {bs cs}, bs <+: cs → parse bs <+: parse cs)
    (X : Pinger P isPing isPong) (hQ : Q.Answers isPing isPong) (h : Steps p q)
    (hp : Always Beat.Due (X.beats p.left)) : Always Beat.Due (X.beats q.left) := by
  induction h with
  | refl => exact hp
  | tail _ hstep ih => exact hstep.due hmono X hQ ih

/-- Just when a ping waits, it is under way, or it has not been answered, or its pong is under
way. -/
theorem token (hmono : ∀ {bs cs}, bs <+: cs → parse bs <+: parse cs)
    (X : Pinger P isPing isPong) (hQ : Q.Answers isPing isPong)
    (hp : Always Beat.Due (X.beats p.left)) :
    p.rightward.content.countP isPing + Q.unanswered isPing isPong p.right +
      p.leftward.content.countP isPong = (Beat.waits (X.beats p.left)).toNat := by
  have hright := Fifo.countP_between (p.handled_right hmono) isPing
  have hleft := Fifo.countP_between (p.handled_left hmono) isPong
  have hbalance := Beat.balance (X.prompt p.leftSound) hp
  rw [X.pings p.leftSound, X.pongs p.leftSound] at hbalance
  have hanswered := hQ p.rightSound
  unfold rightward leftward Party.unanswered
  omega

end Session
