/-
  RUNNING A SELECT — what a server answers to a `Select` with its values bound.

  Rows are lists of cells: NULL, an integer, or some other value.  A comparison with NULL is UNKNOWN, a
  conjunction is three-valued, and a row is kept when the whole of it is TRUE.  ORDER BY puts NULL first.
  FETCH wants at least one row and OFFSET a number that is not negative; otherwise the statement is an
  error, and there is no answer.

  The relation `Exec` speaks about comparisons and orderings of columns that hold numbers; what a
  collation makes of other values is left open.  The select list is not interpreted: rows come back whole.
-/
import VirtualMssql.Lib.TSqlSelect
import VirtualMssql.Lib.Query

namespace VirtualMssql.TSql

open Query List

/-! ## Tables -/

/-- A value in a row. -/
inductive Cell (α : Type)
  | null
  | int (i : Int)
  | other (a : α)
  deriving DecidableEq

variable {α : Type}

/-- NULL or an integer. -/
def Cell.isNumber : Cell α → Bool
  | .other _ => false
  | _ => true

/-- A table: its columns have different names, and every row has all of them. -/
structure Table (α : Type) where
  names : List (List Nat)
  rows : List (List (Cell α))
  nodup : names.Nodup
  width : ∀ r ∈ rows, r.length = names.length

/-- The cell of a row under a name. -/
def Table.cell (t : Table α) (row : List (Cell α)) (n : List Nat) : Option (Cell α) :=
  row[t.names.idxOf n]?

/-- Every row has a number under the name. -/
def Table.Numeric (t : Table α) (n : List Nat) : Prop :=
  ∀ r ∈ t.rows, ∃ x, t.cell r n = some x ∧ x.isNumber = true

/-! ## Conditions -/

def CmpOp.holds (op : CmpOp) (a b : Int) : Bool :=
  match op with
  | .eq => a = b
  | .lt => a < b
  | .le => a ≤ b
  | .gt => b < a
  | .ge => b ≤ a

/-- Comparison with a number; UNKNOWN for NULL. -/
def CmpOp.eval (op : CmpOp) (x : Cell α) (v : Int) : Option Bool :=
  match x with
  | .int i => some (op.holds i v)
  | _ => none

def Cell.isNull : Cell α → Bool
  | .null => true
  | _ => false

/-- A conjunct on a row, with the value bound to its marker. -/
def Cond.eval (t : Table α) (row : List (Cell α)) (v : Int) : Cond → Option Bool
  | .never => some false
  | .compare n op => (t.cell row n).bind fun x => op.eval x v
  | .isNull n => (t.cell row n).map Cell.isNull
  | .isNotNull n => (t.cell row n).map fun x => !x.isNull

/-- Conjunction in three values: FALSE wins over UNKNOWN. -/
def and3 : Option Bool → Option Bool → Option Bool
  | some false, _ => some false
  | _, some false => some false
  | some true, some true => some true
  | _, _ => none

/-- The conjuncts, numbered from `a`, with the values of their markers. -/
def evalConds (t : Table α) (row : List (Cell α)) (value : Marker → Int) :
    Nat → List Cond → Option Bool
  | _, [] => some true
  | a, c :: cs => and3 (c.eval t row (value (.cond a))) (evalConds t row value (a + 1) cs)

/-- A row is kept when the condition is TRUE. -/
def whereKeeps (t : Table α) (value : Marker → Int) (conds : List Cond) (row : List (Cell α)) : Bool :=
  evalConds t row value 0 conds == some true

theorem and3_eq_true {x y : Option Bool} : and3 x y = some true ↔ x = some true ∧ y = some true := by
  rcases x with _ | _ | _ <;> rcases y with _ | _ | _ <;> decide

variable {value : Marker → Int} {t : Table α}

theorem evalConds_eq_true {row : List (Cell α)} :
    ∀ (cs : List Cond) (a : Nat), evalConds t row value a cs = some true ↔
      ∀ (k : Nat) (c : Cond), cs[k]? = some c → c.eval t row (value (.cond (a + k))) = some true
  | [], a => by simp [evalConds]
  | c :: cs, a => by
    rw [evalConds, and3_eq_true, evalConds_eq_true cs (a + 1)]
    constructor
    · rintro ⟨hc, hcs⟩ k d hk
      cases k with
      | zero =>
        obtain rfl : c = d := by simpa using hk
        exact hc
      | succ k =>
        have := hcs k d (by simpa using hk)
        rwa [Nat.add_right_comm] at this
    · intro h
      refine ⟨h 0 c rfl, fun k d hk => ?_⟩
      have := h (k + 1) d (by simpa using hk)
      rwa [← Nat.add_assoc, Nat.add_right_comm] at this

/-- **A row is kept when every conjunct is TRUE of it.** -/
theorem whereKeeps_iff {conds : List Cond} {row : List (Cell α)} : whereKeeps t value conds row = true ↔
      ∀ (k : Nat) (c : Cond), conds[k]? = some c → c.eval t row (value (.cond k)) = some true := by
  simp [whereKeeps, evalConds_eq_true]

/-! ## Order -/

/-- The order of numbers: NULL below all integers. -/
def Cell.lt : Cell α → Cell α → Bool
  | .int i, .int j => i < j
  | .int _, _ => false
  | _, .int _ => true
  | _, _ => false

theorem Cell.lt_weak : WeakOrder (Cell.lt : Cell α → Cell α → Bool) where
  asymm a b h := by
    cases a <;> cases b <;> simp [Cell.lt] at h ⊢
    omega
  split a b c h := by
    cases a <;> cases b <;> cases c <;> simp [Cell.lt] at h ⊢
    omega

/-- The order of rows by one ORDER BY item. -/
def orderLt (t : Table α) (o : List Nat × Bool) (a b : List (Cell α)) : Bool :=
  let cell r := (t.cell r o.1).getD .null
  if o.2 then (cell b).lt (cell a) else (cell a).lt (cell b)

theorem orderLt_weak (t : Table α) (o : List Nat × Bool) : WeakOrder (orderLt t o) := by
  have hkey := Cell.lt_weak.on fun r : List (Cell α) => (t.cell r o.1).getD .null
  obtain ⟨n, desc⟩ := o
  cases desc with
  | false => exact hkey
  | true => exact hkey.flip

def orderLe (t : Table α) (order : List (List Nat × Bool)) : List (Cell α) → List (Cell α) → Bool :=
  lexLe (order.map (orderLt t))

theorem orderLe_total (t : Table α) (order : List (List Nat × Bool)) (a b : List (Cell α)) :
    (orderLe t order a b || orderLe t order b a) = true := by
  refine lexLe_total (fun lt hlt => ?_) a b
  obtain ⟨o, _, rfl⟩ := mem_map.mp hlt
  exact orderLt_weak t o

theorem orderLe_trans (t : Table α) (order : List (List Nat × Bool)) (a b c : List (Cell α))
    (hab : orderLe t order a b = true) (hbc : orderLe t order b c = true) : orderLe t order a c = true := by
  refine lexLe_trans (fun lt hlt => ?_) a b c hab hbc
  obtain ⟨o, _, rfl⟩ := mem_map.mp hlt
  exact orderLt_weak t o

/-! ## Statements -/

/-- The value bound to a marker: the values are bound in the order of the text. -/
def bound (markers : List Marker) (params : List Int) (m : Marker) : Int :=
  ((markers.zip params).lookup m).getD 0

/-- The names of a condition or an order are columns, and numbers where they are compared. -/
def Cond.Typed (t : Table α) : Cond → Prop
  | .never => True
  | .compare n _ => n ∈ t.names ∧ t.Numeric n
  | .isNull n => n ∈ t.names
  | .isNotNull n => n ∈ t.names

structure Select.Typed (t : Table α) (s : Select) : Prop where
  conds : ∀ c ∈ s.conds, c.Typed t
  order : ∀ o ∈ s.order, o.1 ∈ t.names ∧ t.Numeric o.1

/-- The window of a statement, when its numbers are in order. -/
def windowOf (s : Select) (value : Marker → Int) : Option (Nat × Option Nat) :=
  match s.page with
  | .all =>
    if s.top then
      if value .top < 0 then none else some (0, some (value .top).toNat)
    else some (0, none)
  | .first => if value .fetch < 1 then none else some (0, some (value .fetch).toNat)
  | .window =>
    if value .offset < 0 ∨ value .fetch < 1 then none
    else some ((value .offset).toNat, some (value .fetch).toNat)

/-- **What a statement answers** on a database. -/
def Exec (db : List Nat → List Nat → Option (Table α)) (s : Select) (params : List Int)
    (out : List (List (Cell α))) : Prop :=
  ∃ t offset limit, db s.schema s.table = some t ∧ s.Typed t ∧ params.length = s.markers.length ∧
    windowOf s (bound s.markers params) = some (offset, limit) ∧
    Answer t.rows (whereKeeps t (bound s.markers params) s.conds) (orderLe t s.order) offset limit out

/-- The values a list of markers is bound to are the ones meant for it. -/
theorem bound_map {markers : List Marker} {m : Marker} (hm : m ∈ markers) :
    bound markers (markers.map value) m = value m := by
  have hlookup : (markers.zip (markers.map value)).lookup m = some (value m) := by
    induction markers with
    | nil => exact absurd hm not_mem_nil
    | cons x xs ih =>
      rw [map_cons, zip_cons_cons, lookup_cons]
      by_cases hx : m = x
      · subst hx; simp
      · have hne : (m == x) = false := by simpa using hx
        rw [hne]
        exact ih ((mem_cons.mp hm).resolve_left hx)
  rw [bound, hlookup, Option.getD_some]

theorem mem_condMarkers {cs : List Cond} {a k : Nat} {c : Cond} (hc : cs[k]? = some c)
    (hv : c.takesValue = true) : .cond (a + k) ∈ condMarkers a cs := by
  induction cs generalizing a k with
  | nil => cases hc
  | cons d cs ih =>
    rw [condMarkers, mem_append]
    cases k with
    | zero =>
      obtain rfl : d = c := by simpa using hc
      exact .inl (by simp [hv])
    | succ k =>
      have h := ih (a := a + 1) (k := k) (by simpa using hc)
      rw [show a + 1 + k = a + (k + 1) by omega] at h
      exact .inr h

/-- Only a conjunct with a marker looks at a value. -/
theorem Cond.eval_of_not_takesValue {c : Cond} (h : c.takesValue = false) (t : Table α)
    (row : List (Cell α)) (v w : Int) : c.eval t row v = c.eval t row w := by
  cases c with
  | compare n op => simp [Cond.takesValue] at h
  | _ => rfl

/-- A conjunct of a statement gets the value meant for it. -/
theorem Cond.eval_bound {s : Select} {k : Nat} {c : Cond} (hc : s.conds[k]? = some c) (t : Table α)
    (row : List (Cell α)) (value : Marker → Int) :
    c.eval t row (bound s.markers (s.markers.map value) (.cond k)) = c.eval t row (value (.cond k)) := by
  cases hv : c.takesValue with
  | false => exact Cond.eval_of_not_takesValue hv t row _ _
  | true =>
    have hmem := mem_condMarkers (a := 0) hc hv
    rw [Nat.zero_add] at hmem
    have hin : .cond k ∈ s.markers := mem_append_left _ (mem_append_right _ hmem)
    rw [bound_map hin]

theorem whereKeeps_bound (t : Table α) (s : Select) (value : Marker → Int) (row : List (Cell α)) :
    whereKeeps t (bound s.markers (s.markers.map value)) s.conds row = whereKeeps t value s.conds row := by
  rw [Bool.eq_iff_iff, whereKeeps_iff, whereKeeps_iff]
  exact forall_congr' fun k => forall_congr' fun c => imp_congr_right fun hc => by
    rw [Cond.eval_bound hc t row value]

theorem windowOf_bound (s : Select) (value : Marker → Int) :
    windowOf s (bound s.markers (s.markers.map value)) = windowOf s value := by
  have hmem : ∀ m, m ∈ s.page.markers → bound s.markers (s.markers.map value) m = value m :=
    fun m hm => bound_map (mem_append_right _ hm)
  rw [windowOf, windowOf]
  cases hpage : s.page with
  | all =>
    cases htop : s.top with
    | false => rfl
    | true =>
      have htop' : bound s.markers (s.markers.map value) .top = value .top :=
        bound_map (by simp [Select.markers, htop])
      simp [htop']
  | first => simp [hmem .fetch (by simp [hpage, Page.markers])]
  | window =>
    simp [hmem .fetch (by simp [hpage, Page.markers]), hmem .offset (by simp [hpage, Page.markers])]

/-- **Running a statement with the values meant for its markers.** -/
theorem exec_map_iff {db : List Nat → List Nat → Option (Table α)} {s : Select}
    (hdb : db s.schema s.table = some t) (htyped : s.Typed t) (value : Marker → Int) (out : List (List (Cell α))) :
    Exec db s (s.markers.map value) out ↔ ∃ offset limit, windowOf s value = some (offset, limit) ∧
        Answer t.rows (whereKeeps t value s.conds) (orderLe t s.order) offset limit out := by
  have hkeeps : whereKeeps t (bound s.markers (s.markers.map value)) s.conds =
      whereKeeps t value s.conds := funext (whereKeeps_bound t s value)
  constructor
  · rintro ⟨t', offset, limit, hdb', _, _, hwindow, hanswer⟩
    obtain rfl : t = t' := Option.some.inj (hdb.symm.trans hdb')
    rw [windowOf_bound] at hwindow
    rw [hkeeps] at hanswer
    exact ⟨offset, limit, hwindow, hanswer⟩
  · rintro ⟨offset, limit, hwindow, hanswer⟩
    refine ⟨t, offset, limit, hdb, htyped, length_map .., ?_, ?_⟩
    · rw [windowOf_bound]; exact hwindow
    · rw [hkeeps]; exact hanswer

end VirtualMssql.TSql
