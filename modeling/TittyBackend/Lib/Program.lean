import Mathlib.Tactic.Common

/-!
# Programs as trees of commands

A program issues commands one at a time and is resumed with an answer to each. Between two
commands it is a value, so a scheduler can set it aside and run another program. The same tree
is run to its end against a handler (`Prog.run`), interleaved with others
(`Lib.Interleaving`), or followed along every answer it could be given (`Prog.Keeps`).
-/

namespace Programs

/-- A program that issues commands `c : C`, is answered in `Ans c`, and returns an `α`. -/
inductive Prog (C : Type) (Ans : C → Type) (α : Type) where
  | ret : α → Prog C Ans α
  | call : (c : C) → (Ans c → Prog C Ans α) → Prog C Ans α

variable {C : Type} {Ans : C → Type} {α β γ σ : Type}

namespace Prog

def bind : Prog C Ans α → (α → Prog C Ans β) → Prog C Ans β
  | .ret a, f => f a
  | .call c k, f => .call c fun x => (k x).bind f

instance : Monad (Prog C Ans) where
  pure := .ret
  bind := bind

@[simp] lemma pure_eq_ret (a : α) : (pure a : Prog C Ans α) = .ret a := rfl

@[simp] lemma ret_bind (a : α) (f : α → Prog C Ans β) : (Prog.ret a >>= f) = f a := rfl

@[simp] lemma call_bind (c : C) (k : Ans c → Prog C Ans α) (f : α → Prog C Ans β) :
    (Prog.call c k >>= f) = .call c fun x => k x >>= f := rfl

lemma bind_assoc (p : Prog C Ans α) (f : α → Prog C Ans β) (g : β → Prog C Ans γ) :
    (p >>= f >>= g) = (p >>= fun a => f a >>= g) := by
  induction p with
  | ret a => rfl
  | call c k ih => simp only [call_bind, ih]

/-! ### Running against a handler -/

/-- Run a program to its end; `h` answers each command out of a state. -/
def run (h : (c : C) → σ → Ans c × σ) : Prog C Ans α → σ → α × σ
  | .ret a, s => (a, s)
  | .call c k, s => (k (h c s).1).run h (h c s).2

variable (h : (c : C) → σ → Ans c × σ)

@[simp] lemma run_ret (a : α) (s : σ) : (Prog.ret a : Prog C Ans α).run h s = (a, s) := rfl

@[simp] lemma run_call (c : C) (k : Ans c → Prog C Ans α) (s : σ) :
    (Prog.call c k).run h s = (k (h c s).1).run h (h c s).2 := rfl

end Prog

/-! ### What a program may return -/

namespace Prog

/-- `p` returns `a` under some answers to its commands. -/
inductive Yields : Prog C Ans α → α → Prop
  | ret (a : α) : Yields (.ret a) a
  | call {c : C} {k : Ans c → Prog C Ans α} {a : α} (x : Ans c) (h : Yields (k x) a) :
      Yields (.call c k) a

lemma yields_ret {a b : α} : (Prog.ret a : Prog C Ans α).Yields b ↔ b = a := by
  constructor
  · rintro ⟨⟩
    rfl
  · rintro rfl
    exact .ret _

lemma Yields.bind {p : Prog C Ans α} {f : α → Prog C Ans β} {a : α} {b : β} (h : p.Yields a)
    (hf : (f a).Yields b) : (p >>= f).Yields b := by
  induction h with
  | ret a => exact hf
  | call x _ ih => exact .call x (ih hf)

lemma Yields.of_bind {p : Prog C Ans α} {f : α → Prog C Ans β} {b : β} (h : (p >>= f).Yields b) :
    ∃ a, p.Yields a ∧ (f a).Yields b := by
  induction p with
  | ret a => exact ⟨a, .ret a, h⟩
  | call c k ih =>
    cases h with
    | call x h =>
      obtain ⟨a, ha, hb⟩ := ih x h
      exact ⟨a, .call x ha, hb⟩

end Prog

/-! ### What a program ensures -/

namespace Prog

/-- `T c post s` says what it takes in state `s` for `post` to hold after the command `c`. Folded
over a program it says what it takes for `Q` to hold at its end. -/
def Wp (T : (c : C) → (Ans c → σ → Prop) → σ → Prop) (Q : α → σ → Prop) :
    Prog C Ans α → σ → Prop
  | .ret a, s => Q a s
  | .call c k, s => T c (fun x => (k x).Wp T Q) s

variable {T T' : (c : C) → (Ans c → σ → Prop) → σ → Prop} {Q Q' : α → σ → Prop} {s : σ}

@[simp] lemma wp_ret {a : α} : (Prog.ret a : Prog C Ans α).Wp T Q s ↔ Q a s := Iff.rfl

@[simp] lemma wp_call {c : C} {k : Ans c → Prog C Ans α} :
    (Prog.call c k).Wp T Q s ↔ T c (fun x => (k x).Wp T Q) s := Iff.rfl

@[simp] lemma wp_bind {p : Prog C Ans α} {f : α → Prog C Ans β} {Q : β → σ → Prop} :
    (p >>= f).Wp T Q s ↔ p.Wp T (fun a => (f a).Wp T Q) s := by
  induction p generalizing s with
  | ret a => exact Iff.rfl
  | call c k ih =>
    exact iff_of_eq (congrArg (T c · s) (funext fun x => funext fun s' => propext (ih x)))

lemma Wp.mono {p : Prog C Ans α} (hp : p.Wp T Q s) (hQ : ∀ a s, Q a s → Q' a s)
    (hT : ∀ c s (post post' : Ans c → σ → Prop), (∀ x s, post x s → post' x s) → T c post s →
      T' c post' s) : p.Wp T' Q' s := by
  induction p generalizing s with
  | ret a => exact hQ a s hp
  | call c k ih => exact hT c s _ _ (fun x s' hx => ih x hx) hp

end Prog

/-! ### What a program goes on as -/

/-- One command together with the answer it was given. -/
abbrev Exchange (C : Type) (Ans : C → Type) := (c : C) × Ans c

namespace Prog

/-- The first commands of `p` and their answers are those of `es`, in order, and `q` is what is
left of it then. -/
inductive Resumes : Prog C Ans α → List (Exchange C Ans) → Prog C Ans α → Prop
  | nil (p : Prog C Ans α) : Resumes p [] p
  | call {c : C} {k : Ans c → Prog C Ans α} {x : Ans c} {es : List (Exchange C Ans)}
      {q : Prog C Ans α} (h : Resumes (k x) es q) : Resumes (.call c k) (⟨c, x⟩ :: es) q

@[simp] lemma resumes_nil {p q : Prog C Ans α} : p.Resumes [] q ↔ q = p := by
  constructor
  · rintro ⟨⟩
    rfl
  · rintro rfl
    exact .nil _

@[simp] lemma resumes_call {c : C} {k : Ans c → Prog C Ans α} {x : Ans c}
    {es : List (Exchange C Ans)} {q : Prog C Ans α} :
    (Prog.call c k).Resumes (⟨c, x⟩ :: es) q ↔ (k x).Resumes es q := by
  constructor
  · rintro ⟨⟩
    assumption
  · exact .call

end Prog

/-! ### What a program does, whatever it is answered -/

/-- The exchanges of a program so far, the latest first. -/
abbrev Past (C : Type) (Ans : C → Type) := List (Exchange C Ans)

namespace Prog

/-- The command satisfies `φ`, and its answer is recorded. -/
def recording (φ : Past C Ans → C → Prop) (c : C) (post : Ans c → Past C Ans → Prop)
    (h : Past C Ans) : Prop :=
  φ h c ∧ ∀ x, post x (⟨c, x⟩ :: h)

/-- After the past `h`, every command that `p` may come to issue satisfies `φ` and every value
it may return satisfies `ψ`, each at the past it then has. -/
abbrev Keeps (φ : Past C Ans → C → Prop) (ψ : Past C Ans → α → Prop) (h : Past C Ans)
    (p : Prog C Ans α) : Prop :=
  p.Wp (recording φ) (fun a h => ψ h a) h

variable {φ φ' : Past C Ans → C → Prop} {ψ ψ' : Past C Ans → α → Prop} {h : Past C Ans}

lemma Keeps.mono {p : Prog C Ans α} (hp : p.Keeps φ ψ h) (hφ : ∀ h c, φ h c → φ' h c)
    (hψ : ∀ h a, ψ h a → ψ' h a) : p.Keeps φ' ψ' h :=
  Wp.mono hp (fun a h => hψ h a) fun c h _ _ hpost hc =>
    ⟨hφ h c hc.1, fun x => hpost x _ (hc.2 x)⟩

lemma Keeps.and {p : Prog C Ans α} (hp : p.Keeps φ ψ h) (hp' : p.Keeps φ' ψ' h) :
    p.Keeps (fun h c => φ h c ∧ φ' h c) (fun h a => ψ h a ∧ ψ' h a) h := by
  induction p generalizing h with
  | ret a => exact ⟨hp, hp'⟩
  | call c k ih => exact ⟨⟨hp.1, hp'.1⟩, fun x => ih x (hp.2 x) (hp'.2 x)⟩

/-- Every program keeps what holds always. -/
lemma keeps_of_forall (p : Prog C Ans α) (hφ : ∀ h c, φ h c) (hψ : ∀ h a, ψ h a) :
    p.Keeps φ ψ h := by
  induction p generalizing h with
  | ret a => exact hψ h a
  | call c k ih => exact ⟨hφ h c, fun x => ih x⟩

end Prog

/-! ### What a program does not look at -/

namespace Prog

/-- The program issues commands that satisfy `φ` only, and goes on in the same way after answers
that agree. -/
def Blind (φ : C → Prop) (agree : (c : C) → Ans c → Ans c → Prop) : Prog C Ans α → Prop
  | .ret _ => True
  | .call c k => φ c ∧ (∀ x y, agree c x y → k x = k y) ∧ ∀ x, (k x).Blind φ agree

variable {φ : C → Prop} {agree : (c : C) → Ans c → Ans c → Prop}

lemma Blind.bind {p : Prog C Ans α} {f : α → Prog C Ans β} (hp : p.Blind φ agree)
    (hf : ∀ a, (f a).Blind φ agree) : (p >>= f).Blind φ agree := by
  induction p with
  | ret a => exact hf a
  | call c k ih =>
    refine ⟨hp.1, fun x y hxy => ?_, fun x => ih x (hp.2.2 x)⟩
    show (k x >>= f) = (k y >>= f)
    rw [hp.2.1 x y hxy]

lemma Blind.mono {ψ : C → Prop} {p : Prog C Ans α} (hp : p.Blind φ agree)
    (h : ∀ c, φ c → ψ c) : p.Blind ψ agree := by
  induction p with
  | ret a => trivial
  | call c k ih => exact ⟨h c hp.1, hp.2.1, fun x => ih x (hp.2.2 x)⟩

/-- Every program is blind to nothing. -/
lemma blind_eq (p : Prog C Ans α) : p.Blind (fun _ => True) (fun _ x y => x = y) := by
  induction p with
  | ret a => trivial
  | call c k ih => exact ⟨trivial, fun x y hxy => congrArg k hxy, ih⟩

end Prog

end Programs
