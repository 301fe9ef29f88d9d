/-
  STATEMENT TEXT — fixed pieces of text and bracketed names, one after the other.

  A program that writes T-SQL appends fixed pieces (`SELECT `, ` = ?`) and names in brackets.  Each
  fixed piece lexes to the same tokens wherever it stands, as long as the character behind it closes
  its last token; a bracketed name lexes to its name, as long as it has no closing bracket in it.
  `lex_segs_iff` puts the two together: the text lexes to the tokens of its pieces if and only if no
  name contains a closing bracket.
-/
import VirtualMssql.Lib.TSqlLex

namespace VirtualMssql.TSql

open Delimited List

/-- A piece of a statement: fixed text, or a name that is written in brackets. -/
inductive Seg
  | text (t : List Nat)
  | name (n : List Nat)
  deriving DecidableEq, Repr

def Seg.render : Seg → List Nat
  | .text t => t
  | .name n => 91 :: (n ++ [93])

/-- The tokens a piece is meant to be. -/
def Seg.tokens : Seg → List Tok
  | .text t => lex .ascii t
  | .name n => [.quoted n]

def renderSegs (segs : List Seg) : List Nat := segs.flatMap Seg.render
def tokenSegs (segs : List Seg) : List Tok := segs.flatMap Seg.tokens

/-- The character closes the mode: it is read as one between tokens. -/
def Quits (m : Mode) (c : Nat) : Prop :=
  step .ascii m c = (finish m ++ (opening .ascii c).1, (opening .ascii c).2)

instance (m : Mode) (c : Nat) : Decidable (Quits m c) := inferInstanceAs (Decidable (_ = _))

/-- The mode a fixed text ends in. -/
def endMode (t : List Nat) : Mode := (runPrefix .ascii .start t).2

/-- Every piece is closed by the character behind it. -/
def SegsOk : List Seg → Prop
  | [] => True
  | .text t :: rest =>
    (∀ c, (renderSegs rest).head? = some c → Quits (endMode t) c) ∧ SegsOk rest
  | .name _ :: rest => (renderSegs rest).head? ≠ some 93 ∧ SegsOk rest

theorem quits_start (c : Nat) : Quits .start c := rfl

variable {s : List Nat}

theorem lexFrom_quits {m : Mode} (h : ∀ c, s.head? = some c → Quits m c) :
    lexFrom .ascii m s = finish m ++ lexFrom .ascii .start s := by
  cases s with
  | nil => simp [lexFrom, finish]
  | cons c s =>
    have hq : step .ascii m c = _ := h c rfl
    rw [lexFrom_cons, hq, lexFrom_cons, append_assoc]
    rfl

variable {t : List Nat}

/-- A fixed text and what follows it. -/
theorem lexFrom_text (h : ∀ c, s.head? = some c → Quits (endMode t) c) :
    lexFrom .ascii .start (t ++ s) = lex .ascii t ++ lexFrom .ascii .start s := by
  have ht : lex .ascii t = (runPrefix .ascii .start t).1 ++ finish (endMode t) := by
    have := lexFrom_append .ascii t [] .start
    rw [append_nil] at this
    exact this
  rw [lexFrom_append, ← endMode, lexFrom_quits h, ht, append_assoc]

/-- A fixed text that ends between tokens. -/
theorem lex_text_append (ht : endMode t = .start) (s : List Nat) :
    lex .ascii (t ++ s) = lex .ascii t ++ lex .ascii s :=
  lexFrom_text fun c _ => by rw [ht]; exact quits_start c

variable {n : List Nat}

/-- A bracketed name and what follows it. -/
theorem lex_name_append (hn : 93 ∉ n) (hs : s.head? ≠ some 93) :
    lex .ascii (Seg.render (.name n) ++ s) = .quoted n :: lex .ascii s := by
  have hopen : lex .ascii (Seg.render (.name n) ++ s) = lexFrom .ascii (.brk []) (n ++ 93 :: s) := by
    rw [Seg.render, cons_append, append_assoc]
    rfl
  rw [hopen, lexFrom_brk, readBody_plain hs hn]
  rfl

/-- **The text lexes to the tokens of its pieces exactly when no name has a closing bracket.** -/
theorem lex_segs_iff : ∀ segs : List Seg, SegsOk segs →
    (lex .ascii (renderSegs segs) = tokenSegs segs ↔ ∀ n, .name n ∈ segs → 93 ∉ n)
  | [], _ => by simp [renderSegs, tokenSegs, lex, lexFrom, finish]
  | .text t :: rest, h => by
    have ih := lex_segs_iff rest h.2
    have hrender : renderSegs (.text t :: rest) = t ++ renderSegs rest := rfl
    have htokens : tokenSegs (.text t :: rest) = lex .ascii t ++ tokenSegs rest := rfl
    rw [hrender, htokens, lex, lexFrom_text h.1, append_cancel_left_eq, ← lex, ih]
    simp
  | .name n :: rest, h => by
    have ih := lex_segs_iff rest h.2
    have hrender : renderSegs (.name n :: rest) = Seg.render (.name n) ++ renderSegs rest := rfl
    have htokens : tokenSegs (.name n :: rest) = .quoted n :: tokenSegs rest := rfl
    rw [hrender, htokens]
    by_cases hn : 93 ∈ n
    · have hopen : lex .ascii (Seg.render (.name n) ++ renderSegs rest) =
          lexFrom .ascii (.brk []) (n ++ 93 :: renderSegs rest) := by
        rw [Seg.render, cons_append, append_assoc]
        rfl
      rw [hopen, lexFrom_brk]
      refine iff_of_false (fun heq => ?_) fun hall => hall n mem_cons_self hn
      cases hread : readBody 93 (n ++ 93 :: renderSegs rest) with
      | none => simp [hread] at heq
      | some r =>
        obtain ⟨b, r⟩ := r
        rw [hread] at heq
        obtain ⟨hb, _⟩ := List.cons.inj heq
        obtain rfl : b = n := by simpa using hb
        have hb' : readBody 93 (b ++ 93 :: renderSegs rest) = some (b ++ [], r) := by
          rw [append_nil]; exact hread
        exact (not_mem_of_readBody h.1 (by simp) hb').1 hn
    · rw [lex_name_append hn h.1]
      simp only [List.cons.injEq, true_and, ih]
      simp [hn]

/-! ## Putting pieces in front -/

/-- Pieces that start with a blank or a comma, or no pieces at all: they close any name, word or number
    in front of them. -/
def Tail (segs : List Seg) : Prop :=
  SegsOk segs ∧ ∀ c, (renderSegs segs).head? = some c → c = 32 ∨ c = 44

theorem Tail.nil : Tail [] := ⟨trivial, by simp [renderSegs]⟩

variable {rest : List Seg}

/-- A piece that ends between tokens can stand before anything. -/
theorem SegsOk.open (h : SegsOk rest) (ht : endMode t = .start) : SegsOk (.text t :: rest) := by
  refine ⟨fun c _ => ?_, h⟩
  rw [ht]
  exact quits_start c

/-- A piece that ends in a word or a number can stand before a blank or a comma. -/
theorem Tail.closed (h : Tail rest) (ht : Quits (endMode t) 32 ∧ Quits (endMode t) 44) :
    SegsOk (.text t :: rest) := by
  refine ⟨fun c hc => ?_, h.1⟩
  rcases h.2 c hc with rfl | rfl
  · exact ht.1
  · exact ht.2

theorem Tail.name {rest : List Seg} (h : Tail rest) : SegsOk (.name n :: rest) := by
  refine ⟨fun hc => ?_, h.1⟩
  rcases h.2 93 hc with h | h <;> cases h

/-- A name before fixed text that starts with something other than a closing bracket. -/
theorem SegsOk.name {c : Nat} {t : List Nat} {rest : List Seg}
    (h : SegsOk (.text (c :: t) :: rest)) (hc : c ≠ 93) : SegsOk (.name n :: .text (c :: t) :: rest) := by
  refine ⟨?_, h⟩
  simpa [renderSegs, Seg.render] using hc

theorem SegsOk.tail {c : Nat} (h : SegsOk (.text (c :: t) :: rest)) (hc : c = 32 ∨ c = 44) :
    Tail (.text (c :: t) :: rest) := by
  refine ⟨h, fun d hd => ?_⟩
  obtain rfl : c = d := by simpa [renderSegs, Seg.render] using hd
  exact hc

end VirtualMssql.TSql
