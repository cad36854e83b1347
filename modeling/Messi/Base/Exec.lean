import Mathlib.Data.List.Basic

/-!
# Runs that call back into their user

A program that calls its user back is not atomic for the user: the user's code runs in the middle
of it. `Exec σ ρ` is the outcome of a run from a state: it has returned a value, or the run is
looked at `inside` a callback, in the state the user's code sees there. `Sat P Q` is the
corresponding pair of postconditions, and its rules (`Sat.bind`, `Sat.runList`) are those of a
sequential composition whose intermediate states are visible.
-/

/-- The outcome of a run: it has returned, or it is looked at inside a callback. -/
inductive Exec (σ ρ : Type*) where
  | done (r : ρ) (s : σ)
  | inside (s : σ)

namespace Exec

variable {σ ρ τ α : Type*}

/-- The state in which the run is looked at. -/
def state : Exec σ ρ → σ
  | done _ s => s
  | inside s => s

/-- Continue a run that has returned. -/
def bind : Exec σ ρ → (ρ → σ → Exec σ τ) → Exec σ τ
  | done r s, f => f r s
  | inside s, _ => inside s

@[simp] theorem bind_done (r : ρ) (s : σ) (f : ρ → σ → Exec σ τ) : (done r s).bind f = f r s := rfl

@[simp] theorem bind_inside (s : σ) (f : ρ → σ → Exec σ τ) :
    (inside s : Exec σ ρ).bind f = inside s := rfl

@[simp] theorem state_done (r : ρ) (s : σ) : (done r s).state = s := rfl

@[simp] theorem state_inside (s : σ) : (inside s : Exec σ ρ).state = s := rfl

/-- Run a list of steps. -/
def runList (f : α → σ → Exec σ Unit) : List α → σ → Exec σ Unit
  | [], s => done () s
  | a :: l, s => (f a s).bind fun _ s => runList f l s

theorem runList_append (f : α → σ → Exec σ Unit) (l l' : List α) (s : σ) :
    runList f (l ++ l') s = (runList f l s).bind fun _ => runList f l' := by
  induction l generalizing s with
  | nil => rfl
  | cons a l ih =>
    show (f a s).bind _ = ((f a s).bind _).bind _
    cases f a s with
    | done r t => exact ih t
    | inside t => rfl

theorem runList_single (f : α → σ → Exec σ Unit) (a : α) (s : σ) : runList f [a] s = f a s := by
  show (f a s).bind _ = f a s
  cases f a s with
  | done r t => rfl
  | inside t => rfl

/-- `P` holds wherever the run is looked at inside a callback, and `Q` when it has returned. -/
def Sat (P : σ → Prop) (Q : ρ → σ → Prop) : Exec σ ρ → Prop
  | done r s => Q r s
  | inside s => P s

@[simp] theorem sat_done {P : σ → Prop} {Q : ρ → σ → Prop} {r : ρ} {s : σ} :
    Sat P Q (done r s) ↔ Q r s := Iff.rfl

@[simp] theorem sat_inside {P : σ → Prop} {Q : ρ → σ → Prop} {s : σ} :
    Sat P Q (inside s : Exec σ ρ) ↔ P s := Iff.rfl

theorem Sat.mono {P P' : σ → Prop} {Q Q' : ρ → σ → Prop} {x : Exec σ ρ} (h : Sat P Q x)
    (hP : ∀ s, P s → P' s) (hQ : ∀ r s, Q r s → Q' r s) : Sat P' Q' x := by
  cases x with
  | done r s => exact hQ r s h
  | inside s => exact hP s h

theorem Sat.and {P P' : σ → Prop} {Q Q' : ρ → σ → Prop} {x : Exec σ ρ} (h : Sat P Q x)
    (h' : Sat P' Q' x) : Sat (fun s => P s ∧ P' s) (fun r s => Q r s ∧ Q' r s) x := by
  cases x with
  | done r s => exact ⟨h, h'⟩
  | inside s => exact ⟨h, h'⟩

theorem Sat.bind {P : σ → Prop} {Q : ρ → σ → Prop} {R : τ → σ → Prop} {x : Exec σ ρ}
    {f : ρ → σ → Exec σ τ} (h : Sat P Q x) (hf : ∀ r s, Q r s → Sat P R (f r s)) :
    Sat P R (x.bind f) := by
  cases x with
  | done r s => exact hf r s h
  | inside s => exact h

/-- What every step of a list preserves, the list preserves. -/
theorem Sat.runList_of_mem {P I : σ → Prop} {f : α → σ → Exec σ Unit} {l : List α}
    (hf : ∀ a ∈ l, ∀ s, I s → Sat P (fun _ => I) (f a s)) {s : σ} (hs : I s) :
    Sat P (fun _ => I) (Exec.runList f l s) := by
  induction l generalizing s with
  | nil => exact hs
  | cons a l ih =>
    refine Sat.bind (hf a List.mem_cons_self s hs) fun _ s hs => ih (fun a' ha' => ?_) hs
    exact hf a' (List.mem_cons_of_mem a ha')

/-- What every step preserves, a list of steps preserves. -/
theorem Sat.runList {P I : σ → Prop} {f : α → σ → Exec σ Unit}
    (hf : ∀ a s, I s → Sat P (fun _ => I) (f a s)) (l : List α) {s : σ} (hs : I s) :
    Sat P (fun _ => I) (Exec.runList f l s) :=
  Sat.runList_of_mem (fun a _ => hf a) hs

theorem Sat.state {P : σ → Prop} {Q : ρ → σ → Prop} {x : Exec σ ρ} (h : Sat P Q x)
    (hQ : ∀ r s, Q r s → P s) : P x.state := by
  cases x with
  | done r s => exact hQ r s h
  | inside s => exact h

end Exec
