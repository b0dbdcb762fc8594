/-
# Scanners

Two formats that this program writes are read back in this project, S-expressions and JSON.  Both have
tokens without an end of their own: a symbol or a number lasts up to a delimiter, or up to the end of
the input.  A reader that goes through the input once has such a token PENDING, and what it knows
depends on what comes next.

A `Scanner` is a reader of this kind.  Its second law is what makes its pieces fit: in front of a
delimiter it makes no difference whether the pending token was finished.  So `scan_append` cuts an
input in front of any delimiter, with nothing said about the state in between.  Inside a token the
state is a list of what was read, and `run_flatMap` lets it grow piece by piece.
-/

namespace ContractLint

/-- A reader of symbols `α` with states `σ`, in which a token may be pending. -/
structure Scanner (α σ : Type) where
  step : σ → α → Option σ
  /-- Finishes a pending token, as the end of an input does. -/
  finish : σ → Option σ
  /-- Whether no token goes on with a symbol. -/
  delimits : α → Bool
  finish_finish {s t : σ} : finish s = some t → finish t = some t
  step_of_finish {s t : σ} {a : α} : finish s = some t → delimits a = true → step s a = step t a

namespace Scanner

variable {α σ : Type} (m : Scanner α σ) {s t : σ} {as bs : List α}

/-- Reads a piece of an input. -/
def run (s : σ) (as : List α) : Option σ :=
  as.foldlM m.step s

/-- Reads a whole input. -/
def scan (s : σ) (as : List α) : Option σ :=
  (m.run s as).bind m.finish

theorem run_cons (s : σ) (a : α) (as : List α) :
    m.run s (a :: as) = (m.step s a).bind (m.run · as) :=
  rfl

theorem run_append (s : σ) (as bs : List α) :
    m.run s (as ++ bs) = (m.run s as).bind (m.run · bs) :=
  List.foldlM_append

/-- What is read piece by piece is collected, if each piece adds what it spells. -/
theorem run_flatMap {β : Type} {spell : β → List α} (state : List β → σ) {bs : List β}
    (h : ∀ b ∈ bs, ∀ read, m.run (state read) (spell b) = some (state (read ++ [b])))
    (read : List β) : m.run (state read) (bs.flatMap spell) = some (state (read ++ bs)) := by
  induction bs generalizing read with
  | nil =>
    rw [List.append_nil]
    rfl
  | cons b bs ih =>
    obtain ⟨hb, hbs⟩ := List.forall_mem_cons.mp h
    rw [List.flatMap_cons, run_append, hb, Option.bind_some, ih hbs, List.append_assoc,
      List.singleton_append]

/-- What is read symbol by symbol is collected, if each symbol adds itself. -/
theorem run_collect (state : List α → σ) {as : List α}
    (h : ∀ a ∈ as, ∀ read, m.step (state read) a = some (state (read ++ [a])))
    (read : List α) : m.run (state read) as = some (state (read ++ as)) := by
  have hrun : ∀ a ∈ as, ∀ read, m.run (state read) [a] = some (state (read ++ [a])) := by
    intro a ha read
    rw [run_cons, h a ha]
    rfl
  have hflat := m.run_flatMap state hrun read
  rwa [List.flatMap_singleton'] at hflat

variable {m}

/-- Reading goes on behind a piece. -/
theorem scan_append_of_run (h : m.run s as = some t) : m.scan s (as ++ bs) = m.scan t bs := by
  rw [scan, run_append, h]
  rfl

theorem scan_cons_of_step {a : α} (h : m.step s a = some t) :
    m.scan s (a :: bs) = m.scan t bs := by
  rw [scan, run_cons, h]
  rfl

/-- **An input may be cut in front of a delimiter.**  What was read is finished there. -/
theorem scan_append (h : m.scan s as = some t) (hbs : ∀ b ∈ bs.head?, m.delimits b = true) :
    m.scan s (as ++ bs) = m.scan t bs := by
  obtain ⟨r, hrun, hfinish⟩ := Option.bind_eq_some_iff.mp h
  rw [scan_append_of_run hrun]
  cases bs with
  | nil =>
    have hnil : ∀ u, m.scan u [] = m.finish u := fun _ => rfl
    rw [hnil, hnil, hfinish, m.finish_finish hfinish]
  | cons b bs =>
    have hstep := m.step_of_finish hfinish (hbs b rfl)
    rw [scan, scan, run_cons, run_cons, hstep]

end Scanner

end ContractLint
