import TittyBackend.Lib.Program
import Mathlib.Data.List.Basic
import Mathlib.Tactic.Common

/-!
# Interleaved programs

A system runs any number of programs against one shared world. Each step lets one program issue
one command, which the world answers at once; nothing else is atomic. A log keeps everything
that happened, the latest first, so that a property of a whole run is a property of the log of
the state it ends in.
-/

namespace Programs

/-- What the programs share and how it answers one command. `Op` are the calls a client can
make, `R` the results they return, `Ch` the choices the outside makes at a step. -/
structure System (C : Type) (Ans : C → Type) (Op R W Ch : Type) where
  /-- The program of a call. -/
  program : Op → Prog C Ans R
  /-- Whether the world lets program number `i` issue the command under these choices. -/
  enabled : ℕ → C → Ch → W → Bool
  /-- The world's answer, and the world after it. -/
  exec : ℕ → (c : C) → Ch → W → Ans c × W
  /-- What is left of the world when every running program dies. -/
  reset : W → W

/-- A program in progress. `live` ends when it responds or dies. -/
structure Thread (C : Type) (Ans : C → Type) (Op R : Type) where
  op : Op
  past : Past C Ans
  prog : Prog C Ans R
  live : Bool

inductive Event (C : Type) (Ans : C → Type) (Op R : Type) where
  | call (i : ℕ) (op : Op)
  | exec (i : ℕ) (e : Exchange C Ans)
  | respond (i : ℕ) (r : R)
  | crash

/-- A choice of the scheduler. -/
inductive Action (Op Ch : Type) where
  | call (op : Op)
  | step (i : ℕ) (ch : Ch)
  | respond (i : ℕ)
  | crash

/-! ### Histories -/

section history

variable {C : Type} {Ans : C → Type} {Op R : Type}

/-- What the clients see of a run: the calls and the responses. -/
inductive Seen (Op R : Type) where
  | call (i : ℕ) (op : Op)
  | respond (i : ℕ) (r : R)
  deriving DecidableEq

def Seen.event : Seen Op R → Event C Ans Op R
  | .call i op => .call i op
  | .respond i r => .respond i r

def Event.seen? : Event C Ans Op R → Option (Seen Op R)
  | .call i op => some (.call i op)
  | .respond i r => some (.respond i r)
  | .exec _ _ | .crash => none

/-- The calls and the responses of a log, the latest first. -/
def history (l : List (Event C Ans Op R)) : List (Seen Op R) := l.filterMap Event.seen?

lemma seen?_eq_some {e : Event C Ans Op R} {x : Seen Op R} : e.seen? = some x ↔ e = x.event := by
  cases e <;> cases x <;> simp [Event.seen?, Seen.event]

lemma mem_history {x : Seen Op R} {l : List (Event C Ans Op R)} :
    x ∈ history l ↔ x.event ∈ l := by
  simp [history, List.mem_filterMap, seen?_eq_some]

/-- A log is split where its history is. -/
lemma history_split {x : Seen Op R} {a b : List (Seen Op R)} {l : List (Event C Ans Op R)}
    (h : history l = a ++ x :: b) :
    ∃ post pre, l = post ++ x.event :: pre ∧ history post = a ∧ history pre = b := by
  obtain ⟨l₁, l₂, rfl, rfl, h₂⟩ := List.filterMap_eq_append_iff.mp h
  obtain ⟨m, e, pre, rfl, hm, he, rfl⟩ := List.filterMap_eq_cons_iff.mp h₂
  obtain rfl := seen?_eq_some.mp he
  refine ⟨l₁ ++ m, pre, by simp, ?_, rfl⟩
  simp [history, List.filterMap_append, List.filterMap_eq_nil_iff.mpr hm]

end history

namespace System

variable {C : Type} {Ans : C → Type} {Op R W Ch α : Type}

/-- The world, the programs by number, and the log. -/
structure State (S : System C Ans Op R W Ch) where
  world : W
  threads : List (Thread C Ans Op R)
  log : List (Event C Ans Op R)

variable (S : System C Ans Op R W Ch)

def start (w : W) : S.State := ⟨w, [], []⟩

variable {S}

/-- The state after an action, if it can be taken. -/
def State.next (s : S.State) : Action Op Ch → Option S.State
  | .call op => some
      { s with
        threads := s.threads ++ [⟨op, [], S.program op, true⟩]
        log := .call s.threads.length op :: s.log }
  | .step i ch =>
    match s.threads[i]? with
    | some ⟨op, past, .call c k, true⟩ =>
      if S.enabled i c ch s.world then
        let r := S.exec i c ch s.world
        some
          { world := r.2
            threads := s.threads.set i ⟨op, ⟨c, r.1⟩ :: past, k r.1, true⟩
            log := .exec i ⟨c, r.1⟩ :: s.log }
      else none
    | _ => none
  | .respond i =>
    match s.threads[i]? with
    | some ⟨op, past, .ret r, true⟩ => some
        { s with
          threads := s.threads.set i ⟨op, past, .ret r, false⟩
          log := .respond i r :: s.log }
    | _ => none
  | .crash => some
      { world := S.reset s.world
        threads := s.threads.map fun t => { t with live := false }
        log := .crash :: s.log }

/-- The states that runs from `s₀` reach whose every action satisfies `P` in the state it is
taken in. -/
inductive Reach (P : S.State → Action Op Ch → Prop) (s₀ : S.State) : S.State → Prop
  | refl : Reach P s₀ s₀
  | step {s s' : S.State} {a : Action Op Ch} :
      Reach P s₀ s → P s a → s.next a = some s' → Reach P s₀ s'

/-- Reachable from the world `w` with no condition on the actions. -/
abbrev Reachable (w : W) (s : S.State) : Prop := Reach (fun _ _ => True) (S.start w) s

/-- Program number `i` has not ended. -/
def State.Running (s : S.State) (i : ℕ) : Prop := ∃ t, s.threads[i]? = some t ∧ t.live = true

/-- Take a list of actions in order. -/
def State.take (s : S.State) : List (Action Op Ch) → Option S.State
  | [] => some s
  | a :: as => (s.next a).bind fun s' => s'.take as

/-- A run from `s₀` to `s` goes from `s₁` to `s₂` by the action `a`, and its every action satisfies
`P`. -/
structure Passes (P : S.State → Action Op Ch → Prop) (s₀ s₁ : S.State) (a : Action Op Ch)
    (s₂ s : S.State) : Prop where
  reach : Reach P s₀ s₁
  cond : P s₁ a
  next : s₁.next a = some s₂
  rest : Reach P s₂ s

/-- Take a list of actions in order, as long as each passes a test. -/
def State.takeIf (p : S.State → Action Op Ch → Bool) (s : S.State) :
    List (Action Op Ch) → Option S.State
  | [] => some s
  | a :: as => if p s a then (s.next a).bind fun s' => s'.takeIf p as else none

/-- The states before and after the action `a` between two lists of actions, and the last state. -/
def State.passing (s : S.State) (as : List (Action Op Ch)) (a : Action Op Ch)
    (bs : List (Action Op Ch)) : Option (S.State × S.State × S.State) :=
  (s.take as).bind fun s₁ => (s₁.next a).bind fun s₂ => (s₂.take bs).map fun s₃ => (s₁, s₂, s₃)

/-! ### What one action can do -/

/-- The inversion of `next`, one case for each kind of action. -/
inductive State.Steps (s : S.State) : Action Op Ch → S.State → Prop
  | call (op : Op) : Steps s (.call op)
      ⟨s.world, s.threads ++ [⟨op, [], S.program op, true⟩], .call s.threads.length op :: s.log⟩
  | step {i : ℕ} {ch : Ch} {op : Op} {past : Past C Ans} {c : C} {k : Ans c → Prog C Ans R}
      (ht : s.threads[i]? = some ⟨op, past, .call c k, true⟩)
      (hen : S.enabled i c ch s.world = true) : Steps s (.step i ch)
      ⟨(S.exec i c ch s.world).2,
        s.threads.set i ⟨op, ⟨c, (S.exec i c ch s.world).1⟩ :: past,
          k (S.exec i c ch s.world).1, true⟩,
        .exec i ⟨c, (S.exec i c ch s.world).1⟩ :: s.log⟩
  | respond {i : ℕ} {op : Op} {past : Past C Ans} {r : R}
      (ht : s.threads[i]? = some ⟨op, past, .ret r, true⟩) : Steps s (.respond i)
      ⟨s.world, s.threads.set i ⟨op, past, .ret r, false⟩, .respond i r :: s.log⟩
  | crash : Steps s .crash
      ⟨S.reset s.world, s.threads.map fun t => { t with live := false }, .crash :: s.log⟩

lemma State.steps_of_next {s s' : S.State} {a : Action Op Ch} (h : s.next a = some s') :
    s.Steps a s' := by
  cases a with
  | call op =>
    simp only [next, Option.some.injEq] at h
    exact h ▸ .call op
  | step i ch =>
    simp only [next] at h
    split at h
    · rename_i ht
      split_ifs at h with hen
      simp only [Option.some.injEq] at h
      exact h ▸ .step ht hen
    · cases h
  | respond i =>
    simp only [next] at h
    split at h
    · rename_i ht
      simp only [Option.some.injEq] at h
      exact h ▸ .respond ht
    · cases h
  | crash =>
    simp only [next, Option.some.injEq] at h
    exact h ▸ .crash

variable {P Q : S.State → Action Op Ch → Prop} {s₀ s s' : S.State}

/-- A property of the first state that every action keeps holds in every state reached; the
step may use that its first state is reached. -/
theorem Reach.induct (I : S.State → Prop) (h : Reach P s₀ s) (h₀ : I s₀)
    (hstep : ∀ s a s', Reach P s₀ s → P s a → I s → s.Steps a s' → I s') : I s := by
  induction h with
  | refl => exact h₀
  | step hr hP hn ih => exact hstep _ _ _ hr hP ih (State.steps_of_next hn)

lemma Reach.mono (h : Reach P s₀ s) (hPQ : ∀ s a, P s a → Q s a) : Reach Q s₀ s := by
  induction h with
  | refl => exact .refl
  | step _ hP hn ih => exact .step ih (hPQ _ _ hP) hn

lemma Reach.trans (h : Reach P s₀ s) (h' : Reach P s s') : Reach P s₀ s' := by
  induction h' with
  | refl => exact h
  | step _ hP hn ih => exact .step ih hP hn

lemma Reach.reachable {w : W} (h : Reach P (S.start w) s) : Reachable w s :=
  h.mono fun _ _ _ => trivial

lemma Reach.take (h : Reach P s₀ s) {as : List (Action Op Ch)} (hP : ∀ a ∈ as, ∀ s, P s a)
    (hs : s.take as = some s') : Reach P s₀ s' := by
  induction as generalizing s with
  | nil =>
    simp only [State.take, Option.some.injEq] at hs
    exact hs ▸ h
  | cons a as ih =>
    obtain ⟨s₁, hn, hs'⟩ := Option.bind_eq_some_iff.mp hs
    exact ih (.step h (hP a List.mem_cons_self s) hn)
      (fun a ha => hP a (List.mem_cons_of_mem _ ha)) hs'

lemma reachable_of_take {w : W} {as : List (Action Op Ch)} (h : (S.start w).take as = some s) :
    Reachable w s := Reach.refl.take (fun _ _ _ => trivial) h

lemma Passes.reachable {w : W} {s₁ s₂ : S.State} {a : Action Op Ch}
    (h : Passes P (S.start w) s₁ a s₂ s) : Reachable w s :=
  ((h.reach.step h.cond h.next).trans h.rest).reachable

lemma passes_of_passing {w : W} {as bs : List (Action Op Ch)} {a : Action Op Ch} {s₁ s₂ : S.State}
    (h : (S.start w).passing as a bs = some (s₁, s₂, s)) :
    Passes (fun _ _ => True) (S.start w) s₁ a s₂ s := by
  obtain ⟨x, hx, h⟩ := Option.bind_eq_some_iff.mp h
  obtain ⟨y, hy, h⟩ := Option.bind_eq_some_iff.mp h
  obtain ⟨z, hz, h⟩ := Option.map_eq_some_iff.mp h
  cases h
  exact ⟨reachable_of_take hx, trivial, hy, Reach.refl.take (fun _ _ _ => trivial) hz⟩

lemma Reach.takeIf (h : Reach P s₀ s) {p : S.State → Action Op Ch → Bool}
    (hP : ∀ s a, p s a = true → P s a) {as : List (Action Op Ch)} (hs : s.takeIf p as = some s') :
    Reach P s₀ s' := by
  induction as generalizing s with
  | nil =>
    simp only [State.takeIf, Option.some.injEq] at hs
    exact hs ▸ h
  | cons a as ih =>
    rw [State.takeIf] at hs
    split_ifs at hs with hp
    obtain ⟨s₁, hn, hs'⟩ := Option.bind_eq_some_iff.mp hs
    exact ih (.step h (hP s a hp) hn) hs'

/-! ### The log -/

/-- Every action adds one event to the log. -/
lemma State.Steps.log_eq {a : Action Op Ch} (h : s.Steps a s') : ∃ e, s'.log = e :: s.log := by
  cases h <;> exact ⟨_, rfl⟩

lemma Reach.log_suffix (h : Reach P s₀ s) : s₀.log <:+ s.log := by
  refine h.induct (fun s => s₀.log <:+ s.log) List.suffix_rfl fun s a s' _ _ ih hst => ?_
  obtain ⟨e, he⟩ := hst.log_eq
  exact he ▸ ih.trans (List.suffix_cons e s.log)

/-- A run can be cut at any event of its log that it added itself. -/
theorem Reach.rewind (h : Reach P s₀ s) {post pre : List (Event C Ans Op R)}
    {e : Event C Ans Op R} (hlog : s.log = post ++ e :: pre) (hpre : s₀.log <:+ pre) :
    ∃ s₁ a s₂, Reach P s₀ s₁ ∧ s₁.log = pre ∧ P s₁ a ∧ s₁.next a = some s₂ ∧
      s₂.log = e :: pre ∧ Reach P s₁ s := by
  induction h generalizing post with
  | refl =>
    have hlen := hpre.length_le
    rw [hlog, List.length_append, List.length_cons] at hlen
    omega
  | step hr hP hn ih =>
    have hst := State.steps_of_next hn
    obtain ⟨e', he'⟩ := hst.log_eq
    cases post with
    | nil =>
      rw [he', List.nil_append, List.cons.injEq] at hlog
      obtain ⟨rfl, rfl⟩ := hlog
      exact ⟨_, _, _, hr, rfl, hP, hn, he', .step .refl hP hn⟩
    | cons x post =>
      rw [he', List.cons_append, List.cons.injEq] at hlog
      obtain ⟨s₁, a, s₂, h₁, hl₁, hP₁, hst₁, hl₂, h₂⟩ := ih hlog.2
      exact ⟨s₁, a, s₂, h₁, hl₁, hP₁, hst₁, hl₂, .step h₂ hP hn⟩

/-- The exchanges of program number `i` in a log. -/
def own (i : ℕ) : List (Event C Ans Op R) → Past C Ans
  | [] => []
  | .exec j e :: l => if j = i then e :: own i l else own i l
  | .call _ _ :: l => own i l
  | .respond _ _ :: l => own i l
  | .crash :: l => own i l

lemma mem_own {i : ℕ} {e : Exchange C Ans} {l : List (Event C Ans Op R)} :
    e ∈ own i l ↔ .exec i e ∈ l := by
  induction l with
  | nil => simp [own]
  | cons x l ih =>
    cases x with
    | exec j e' =>
      by_cases hj : j = i
      · subst hj; simp [own, ih]
      · simp [own, ih, hj, Ne.symm hj]
    | call | respond | crash => simp [own, ih]

lemma own_append (i : ℕ) (l l' : List (Event C Ans Op R)) :
    own i (l ++ l') = own i l ++ own i l' := by
  induction l with
  | nil => rfl
  | cons x l ih =>
    cases x with
    | exec j e =>
      by_cases hj : j = i
      · simp [own, ih, hj]
      · simp [own, ih, hj]
    | call | respond | crash => exact ih

/-- The latest exchange of a program, in the log. -/
lemma own_eq_cons {i : ℕ} {e : Exchange C Ans} {es : Past C Ans} {l : List (Event C Ans Op R)}
    (h : own i l = e :: es) : ∃ post pre, l = post ++ .exec i e :: pre ∧ own i pre = es := by
  induction l with
  | nil => cases h
  | cons x l ih =>
    cases x with
    | exec j e' =>
      by_cases hj : j = i
      · subst hj
        simp only [own, if_true, List.cons.injEq] at h
        obtain ⟨rfl, rfl⟩ := h
        exact ⟨[], l, rfl, rfl⟩
      · simp only [own, if_neg hj] at h
        obtain ⟨post, pre, rfl, hpre⟩ := ih h
        exact ⟨.exec j e' :: post, pre, rfl, hpre⟩
    | call | respond | crash =>
      obtain ⟨post, pre, rfl, hpre⟩ := ih h
      exact ⟨_ :: post, pre, rfl, hpre⟩

/-- A program's exchange, in the log, with what the program had seen before it. -/
lemma own_eq_append {i : ℕ} {e : Exchange C Ans} {es fs : Past C Ans} {l : List (Event C Ans Op R)}
    (h : own i l = fs ++ e :: es) : ∃ post pre, l = post ++ .exec i e :: pre ∧ own i pre = es := by
  induction fs generalizing l with
  | nil => exact own_eq_cons h
  | cons x fs ih =>
    obtain ⟨post, pre, rfl, hpre⟩ := own_eq_cons h
    obtain ⟨post', pre', rfl, hpre'⟩ := ih hpre
    exact ⟨post ++ .exec i x :: post', pre', by simp, hpre'⟩

/-- Program number `i` was called after the last crash. -/
def Alive (i : ℕ) : List (Event C Ans Op R) → Prop
  | [] => False
  | .call j _ :: l => j = i ∨ Alive i l
  | .exec _ _ :: l => Alive i l
  | .respond _ _ :: l => Alive i l
  | .crash :: _ => False

/-- The log and the programs in progress tell the same story. -/
structure Logged (s : S.State) : Prop where
  past : ∀ i t, s.threads[i]? = some t → t.past = own i s.log
  unused : ∀ i, s.threads[i]? = none → own i s.log = []
  call : ∀ i op, .call i op ∈ s.log ↔ ∃ t, s.threads[i]? = some t ∧ t.op = op
  respond : ∀ i r, .respond i r ∈ s.log →
    ∃ t, s.threads[i]? = some t ∧ t.live = false ∧ t.prog = .ret r
  alive : ∀ i t, s.threads[i]? = some t → t.live = true → Alive i s.log

lemma logged_start (w : W) : Logged (S.start w) where
  past := by simp [start]
  unused := by simp [start, own]
  call := by simp [start]
  respond := by simp [start]
  alive := by simp [start]

/-- Looking up a program after one was appended. -/
lemma getElem?_snoc {l : List α} {i : ℕ} {a b : α} :
    (l ++ [a])[i]? = some b ↔ l[i]? = some b ∨ i = l.length ∧ b = a := by
  grind

/-- Looking up a program after a present one was replaced. -/
lemma getElem?_replaced {l : List α} {i j : ℕ} {a a' b : α} (h : l[i]? = some a) :
    (l.set i a')[j]? = some b ↔ i = j ∧ b = a' ∨ i ≠ j ∧ l[j]? = some b := by
  grind

/-- What some program at a position has is kept when a program that has it as well replaces it. -/
lemma exists_replaced {l : List α} {i j : ℕ} {a a' : α} {p : α → Prop} (h : l[i]? = some a)
    (hp : p a' ↔ p a) : (∃ b, l[j]? = some b ∧ p b) ↔ ∃ b, (l.set i a')[j]? = some b ∧ p b := by
  constructor
  · rintro ⟨b, hb, hpb⟩
    by_cases hij : i = j
    · subst hij
      obtain rfl := Option.some.inj (h.symm.trans hb)
      exact ⟨a', (getElem?_replaced h).mpr (.inl ⟨rfl, rfl⟩), hp.mpr hpb⟩
    · exact ⟨b, (getElem?_replaced h).mpr (.inr ⟨hij, hb⟩), hpb⟩
  · rintro ⟨b, hb, hpb⟩
    rcases (getElem?_replaced h).mp hb with ⟨rfl, rfl⟩ | ⟨-, hb⟩
    · exact ⟨a, h, hp.mp hpb⟩
    · exact ⟨b, hb, hpb⟩

lemma Logged.steps {a : Action Op Ch} (h : Logged s) (hst : s.Steps a s') : Logged s' := by
  cases hst with
  | call op =>
    have hnew : own s.threads.length s.log = [] := h.unused _ (by simp)
    refine ⟨fun i t ht => ?_, fun i hi => ?_, fun i op' => ?_, fun i r hr => ?_,
      fun i t ht hl => ?_⟩
    · rcases getElem?_snoc.mp ht with ht | ⟨rfl, rfl⟩
      · exact h.past i t ht
      · exact hnew.symm
    · exact h.unused i (by simp at hi ⊢; omega)
    · simp only [List.mem_cons, Event.call.injEq, h.call, getElem?_snoc]
      constructor
      · rintro (⟨rfl, rfl⟩ | ⟨t, ht, rfl⟩)
        · exact ⟨_, .inr ⟨rfl, rfl⟩, rfl⟩
        · exact ⟨t, .inl ht, rfl⟩
      · rintro ⟨t, ht | ⟨rfl, rfl⟩, rfl⟩
        · exact .inr ⟨t, ht, rfl⟩
        · exact .inl ⟨rfl, rfl⟩
    · obtain ⟨t, ht, hl⟩ := h.respond i r (by simpa using hr)
      exact ⟨t, getElem?_snoc.mpr (.inl ht), hl⟩
    · rcases getElem?_snoc.mp ht with ht | ⟨rfl, rfl⟩
      · exact .inr (h.alive i t ht hl)
      · exact .inl rfl
  | @step i ch op past c k ht hen =>
    refine ⟨fun j t htj => ?_, fun j hj => ?_, fun j op' => ?_, fun j r hr => ?_,
      fun j t htj hl => ?_⟩
    · rcases (getElem?_replaced ht).mp htj with ⟨rfl, rfl⟩ | ⟨hij, htj⟩
      · simpa [own] using h.past i _ ht
      · simpa [own, hij] using h.past j t htj
    · have hij : i ≠ j := by rintro rfl; grind
      simpa [own, hij] using h.unused j (by simpa [List.getElem?_set_ne hij] using hj)
    · simp only [List.mem_cons, reduceCtorEq, false_or, h.call]
      exact exists_replaced ht Iff.rfl
    · obtain ⟨t, htj, hl⟩ := h.respond j r (by simpa using hr)
      have hij : i ≠ j := by rintro rfl; grind
      exact ⟨t, (getElem?_replaced ht).mpr (.inr ⟨hij, htj⟩), hl⟩
    · rcases (getElem?_replaced ht).mp htj with ⟨rfl, rfl⟩ | ⟨-, htj⟩
      · exact h.alive i _ ht rfl
      · exact h.alive j t htj hl
  | @respond i op past r ht =>
    refine ⟨fun j t htj => ?_, fun j hj => ?_, fun j op' => ?_, fun j r' hr => ?_,
      fun j t htj hl => ?_⟩
    · rcases (getElem?_replaced ht).mp htj with ⟨rfl, rfl⟩ | ⟨hij, htj⟩
      · simpa [own] using h.past i _ ht
      · exact h.past j t htj
    · have hij : i ≠ j := by rintro rfl; grind
      exact h.unused j (by simpa [List.getElem?_set_ne hij] using hj)
    · simp only [List.mem_cons, reduceCtorEq, false_or, h.call]
      exact exists_replaced ht Iff.rfl
    · rcases List.mem_cons.mp hr with hr | hr
      · obtain ⟨rfl, rfl⟩ := Event.respond.injEq .. ▸ hr
        exact ⟨_, (getElem?_replaced ht).mpr (.inl ⟨rfl, rfl⟩), rfl, rfl⟩
      · obtain ⟨t, htj, hl⟩ := h.respond j r' hr
        have hij : i ≠ j := by rintro rfl; grind
        exact ⟨t, (getElem?_replaced ht).mpr (.inr ⟨hij, htj⟩), hl⟩
    · rcases (getElem?_replaced ht).mp htj with ⟨rfl, rfl⟩ | ⟨-, htj⟩
      · cases hl
      · exact h.alive j t htj hl
  | crash =>
    refine ⟨fun i t ht => ?_, fun i hi => ?_, fun i op => ?_, fun i r hr => ?_,
      fun i t ht hl => ?_⟩
    · obtain ⟨u, hu, rfl⟩ := by simpa using ht
      exact h.past i u hu
    · exact h.unused i (by simpa using hi)
    · simp only [List.mem_cons, reduceCtorEq, false_or, h.call, List.getElem?_map,
        Option.map_eq_some_iff]
      constructor
      · rintro ⟨t, ht, rfl⟩
        exact ⟨_, ⟨t, ht, rfl⟩, rfl⟩
      · rintro ⟨_, ⟨t, ht, rfl⟩, rfl⟩
        exact ⟨t, ht, rfl⟩
    · obtain ⟨t, ht, -, hp⟩ := h.respond i r (by simpa using hr)
      exact ⟨{ t with live := false }, by simp [ht], rfl, hp⟩
    · obtain ⟨u, hu, rfl⟩ := by simpa using ht
      cases hl

lemma Reach.logged {w : W} (h : Reach P (S.start w) s) : Logged s :=
  h.induct Logged (logged_start w) fun _ _ _ _ _ ih hst => ih.steps hst

/-! ### What the programs keep -/

section keeps

variable {φ : Op → Past C Ans → C → Prop} {ψ : Op → Past C Ans → R → Prop} {w : W}
  (hk : ∀ op, (S.program op).Keeps (φ op) (ψ op) [])

include hk

/-- Every program in progress still keeps what the program of its call keeps. -/
lemma Reach.keeps (h : Reach P (S.start w) s) :
    ∀ (i : ℕ) (t : Thread C Ans Op R), s.threads[i]? = some t →
      t.prog.Keeps (φ t.op) (ψ t.op) t.past := by
  refine h.induct (fun s => ∀ (i : ℕ) (t : Thread C Ans Op R), s.threads[i]? = some t →
    t.prog.Keeps (φ t.op) (ψ t.op) t.past) (by simp [start]) fun s a s' _ _ ih hst i t ht => ?_
  cases hst with
  | call op =>
    rcases getElem?_snoc.mp ht with ht | ⟨rfl, rfl⟩
    · exact ih i t ht
    · exact hk op
  | step htj hen =>
    rcases (getElem?_replaced htj).mp ht with ⟨rfl, rfl⟩ | ⟨-, ht⟩
    · exact (ih _ _ htj).2 _
    · exact ih i t ht
  | respond htj =>
    rcases (getElem?_replaced htj).mp ht with ⟨rfl, rfl⟩ | ⟨-, ht⟩
    · exact ih _ ⟨_, _, _, true⟩ htj
    · exact ih i t ht
  | crash =>
    obtain ⟨u, hu, rfl⟩ := by simpa using ht
    exact ih i u hu

/-- A property of the world and the log that every kind of event keeps, where a command is one
that its call issues at its past. -/
theorem Reach.invariant (h : Reach P (S.start w) s) (I : W → List (Event C Ans Op R) → Prop)
    (hstart : I w [])
    (hcall : ∀ s i op, Reach P (S.start w) s → own i s.log = [] → I s.world s.log →
      I s.world (.call i op :: s.log))
    (hexec : ∀ s i op c ch, Reach P (S.start w) s → .call i op ∈ s.log → Alive i s.log →
      φ op (own i s.log) c → S.enabled i c ch s.world = true → P s (.step i ch) →
      I s.world s.log →
      I (S.exec i c ch s.world).2 (.exec i ⟨c, (S.exec i c ch s.world).1⟩ :: s.log))
    (hrespond : ∀ s i op r, Reach P (S.start w) s → .call i op ∈ s.log →
      ψ op (own i s.log) r → I s.world s.log → I s.world (.respond i r :: s.log))
    (hcrash : ∀ s, Reach P (S.start w) s → I s.world s.log →
      I (S.reset s.world) (.crash :: s.log)) : I s.world s.log := by
  refine h.induct (fun s => I s.world s.log) hstart fun s a s' hr hP ih hst => ?_
  cases hst with
  | call op => exact hcall s _ op hr (hr.logged.unused _ (by simp)) ih
  | @step i ch op past c k ht hen =>
    have hpast := hr.logged.past i _ ht
    refine hexec s i op c ch hr ((hr.logged.call i op).mpr ⟨_, ht, rfl⟩)
      (hr.logged.alive i _ ht rfl) ?_ hen hP ih
    exact hpast ▸ (hr.keeps hk i _ ht).1
  | @respond i op past r ht =>
    have hpast := hr.logged.past i _ ht
    refine hrespond s i op r hr ((hr.logged.call i op).mpr ⟨_, ht, rfl⟩) ?_ ih
    exact hpast ▸ hr.keeps hk i _ ht
  | crash => exact hcrash s hr ih

/-- A command in the log was allowed by the call it was issued for, at its past then. -/
theorem Reach.log_exec (h : Reach P (S.start w) s) {post pre : List (Event C Ans Op R)} {i : ℕ}
    {e : Exchange C Ans} (hlog : s.log = post ++ .exec i e :: pre) :
    ∃ op, .call i op ∈ pre ∧ φ op (own i pre) e.1 := by
  obtain ⟨s₁, a, s₂, h₁, rfl, -, hn, hl₂, -⟩ := h.rewind hlog (by simp [start])
  cases State.steps_of_next hn with
  | call op => cases hl₂
  | crash => cases hl₂
  | respond ht => cases hl₂
  | @step i' ch op past c k ht hen =>
    simp only [List.cons.injEq, Event.exec.injEq, and_true] at hl₂
    obtain ⟨rfl, rfl⟩ := hl₂
    have hpast := h₁.logged.past _ _ ht
    exact ⟨op, (h₁.logged.call _ _).mpr ⟨_, ht, rfl⟩, hpast ▸ (h₁.keeps hk _ _ ht).1⟩

/-- A response in the log was allowed by the call it answers, at its past then. -/
theorem Reach.log_respond (h : Reach P (S.start w) s) {post pre : List (Event C Ans Op R)}
    {i : ℕ} {r : R} (hlog : s.log = post ++ .respond i r :: pre) :
    ∃ op, .call i op ∈ pre ∧ ψ op (own i pre) r := by
  obtain ⟨s₁, a, s₂, h₁, rfl, -, hn, hl₂, -⟩ := h.rewind hlog (by simp [start])
  cases State.steps_of_next hn with
  | call op => cases hl₂
  | crash => cases hl₂
  | step ht hen => cases hl₂
  | @respond i' op past r' ht =>
    simp only [List.cons.injEq, Event.respond.injEq, and_true] at hl₂
    obtain ⟨rfl, rfl⟩ := hl₂
    have hpast := h₁.logged.past _ _ ht
    exact ⟨op, (h₁.logged.call _ _).mpr ⟨_, ht, rfl⟩, hpast ▸ h₁.keeps hk _ _ ht⟩

end keeps

/-- Nothing of a program precedes its call. -/
lemma Reach.before_call (h : Reach P (S.start w) s) {post pre : List (Event C Ans Op R)} {i : ℕ}
    {op : Op} (hlog : s.log = post ++ .call i op :: pre) : own i pre = [] := by
  obtain ⟨s₁, a, s₂, h₁, rfl, -, hn, hl₂, -⟩ := h.rewind hlog (by simp [start])
  cases State.steps_of_next hn with
  | call op =>
    cases hl₂
    exact h₁.logged.unused _ (by simp)
  | step ht hen => cases hl₂
  | respond ht => cases hl₂
  | crash => cases hl₂

/-- A program that responds has not responded before. -/
lemma Reach.before_respond (h : Reach P (S.start w) s) {post pre : List (Event C Ans Op R)}
    {i : ℕ} {r : R} (hlog : s.log = post ++ .respond i r :: pre) (r' : R) :
    .respond i r' ∉ pre := by
  obtain ⟨s₁, a, s₂, h₁, rfl, -, hn, hl₂, -⟩ := h.rewind hlog (by simp [start])
  cases State.steps_of_next hn with
  | call op => cases hl₂
  | step ht hen => cases hl₂
  | @respond i op past r ht =>
    cases hl₂
    intro hr
    obtain ⟨t, ht', hl, -⟩ := h₁.logged.respond _ _ hr
    grind
  | crash => cases hl₂

/-- A program that has ended stays so. -/
lemma Reach.ended (h : Reach P s₀ s) {i : ℕ} {t : Thread C Ans Op R}
    (ht : s₀.threads[i]? = some t) (hr : ¬ s₀.Running i) : ¬ s.Running i := by
  have hdead : ∃ t, s.threads[i]? = some t ∧ t.live = false := by
    refine h.induct (fun s => ∃ t, s.threads[i]? = some t ∧ t.live = false)
      ⟨t, ht, Bool.eq_false_iff.mpr fun hl => hr ⟨t, ht, hl⟩⟩ fun s a s' _ _ ih hst => ?_
    obtain ⟨t, ht, hl⟩ := ih
    cases hst with
    | call op => exact ⟨t, getElem?_snoc.mpr (.inl ht), hl⟩
    | @step j _ _ _ _ _ htj =>
      have hij : j ≠ i := by rintro rfl; grind
      exact ⟨t, (getElem?_replaced htj).mpr (.inr ⟨hij, ht⟩), hl⟩
    | @respond j _ _ _ htj =>
      have hij : j ≠ i := by rintro rfl; grind
      exact ⟨t, (getElem?_replaced htj).mpr (.inr ⟨hij, ht⟩), hl⟩
    | crash => exact ⟨{ t with live := false }, by simp [ht], rfl⟩
  rintro ⟨t', ht', hl'⟩
  obtain ⟨t, ht, hl⟩ := hdead
  grind

/-- A program that responds later has not ended. -/
lemma Reach.running_of_respond (h : Reach P s₀ s) {post pre : List (Event C Ans Op R)} {i : ℕ}
    {r : R} {t : Thread C Ans Op R} (ht : s₀.threads[i]? = some t)
    (hlog : s.log = post ++ .respond i r :: pre) (hpre : s₀.log <:+ pre) : s₀.Running i := by
  obtain ⟨s₁, a, s₂, h₁, rfl, -, hn, hl₂, -⟩ := h.rewind hlog hpre
  by_contra hr
  refine h₁.ended ht hr ?_
  cases State.steps_of_next hn with
  | call op => cases hl₂
  | step ht hen => cases hl₂
  | respond ht =>
    cases hl₂
    exact ⟨_, ht, rfl⟩
  | crash => cases hl₂

/-- A run that gets anywhere takes a first action. -/
lemma Reach.first (h : Reach P s₀ s) :
    s = s₀ ∨ ∃ a s₁, P s₀ a ∧ s₀.next a = some s₁ ∧ Reach P s₁ s := by
  induction h with
  | refl => exact .inl rfl
  | step h' hP hn ih =>
    rcases ih with rfl | ⟨a, s₁, hP₁, hn₁, h₁⟩
    · exact .inr ⟨_, _, hP, hn, .refl⟩
    · exact .inr ⟨a, s₁, hP₁, hn₁, .step h₁ hP hn⟩

/-- A run passes through every event of its log that it added itself. -/
theorem Reach.passes (h : Reach P s₀ s) {post pre : List (Event C Ans Op R)}
    {e : Event C Ans Op R} (hlog : s.log = post ++ e :: pre) (hpre : s₀.log <:+ pre) :
    ∃ s₁ a s₂, Passes P s₀ s₁ a s₂ s ∧ s₁.log = pre ∧ s₂.log = e :: pre := by
  obtain ⟨s₁, -, -, h₁, rfl, -, -, -, h₂⟩ := h.rewind hlog hpre
  rcases h₂.first with rfl | ⟨a, s₂, hP, hn, h₂⟩
  · have hlen := congrArg List.length hlog
    rw [List.length_append, List.length_cons] at hlen
    omega
  · obtain ⟨e', he'⟩ := (State.steps_of_next hn).log_eq
    obtain ⟨t, ht⟩ := h₂.log_suffix
    rw [he', hlog] at ht
    exact ⟨s₁, a, s₂, ⟨h₁, hP, hn, h₂⟩, rfl, he'.trans (List.append_inj' ht rfl).2⟩

/-- A program that has responded issues nothing more. -/
lemma Reach.own_of_respond (h : Reach P (S.start w) s) {post pre : List (Event C Ans Op R)} {i : ℕ}
    {r : R} (hlog : s.log = post ++ .respond i r :: pre) : own i s.log = own i pre := by
  have hpost : own i post = [] := by
    by_contra hne
    obtain ⟨e, es, he⟩ := List.exists_cons_of_ne_nil hne
    obtain ⟨a, b, rfl, -⟩ := own_eq_cons he
    rw [List.append_assoc, List.cons_append] at hlog
    obtain ⟨s₁, x, s₂, h₁, hl₁, -, hn, hl₂, -⟩ := h.rewind hlog (by simp [start])
    obtain ⟨t, ht, hl, -⟩ := h₁.logged.respond i r (by simp [hl₁])
    cases State.steps_of_next hn with
    | call op => cases hl₂
    | step ht' hen => grind
    | respond ht' => cases hl₂
    | crash => cases hl₂
  rw [hlog, own_append, hpost]
  rfl

lemma Logged.thread_of_exec (h : Logged s) {i : ℕ} {e : Exchange C Ans}
    (he : .exec i e ∈ s.log) : ∃ t, s.threads[i]? = some t := by
  have hne : s.threads[i]? ≠ none := fun hnone => by
    have hmem := mem_own.mpr he
    rw [h.unused i hnone] at hmem
    exact List.not_mem_nil hmem
  exact Option.ne_none_iff_exists'.mp hne

lemma Logged.call_unique (h : Logged s) {i : ℕ} {op op' : Op} (ho : .call i op ∈ s.log)
    (ho' : .call i op' ∈ s.log) : op = op' := by
  obtain ⟨t, ht, rfl⟩ := (h.call i op).mp ho
  obtain ⟨t', ht', rfl⟩ := (h.call i op').mp ho'
  grind

end System

end Programs
