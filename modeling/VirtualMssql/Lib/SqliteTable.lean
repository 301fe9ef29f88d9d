/-
  SQLITE TABLES — what CREATE TABLE makes of a text, and what INSERT leaves in the table.

  A column list is written `"name" TYPE, …`, each name between double quotes and closed by the first quote
  that is not doubled.  When no name has a quote in it, the list that is read is the list that was
  written, and the table is `Plain`: it has one column for each entry, and a row whose values have the
  storage class of their column's type is appended as it is (a type never converts NULL or a blob, and
  leaves a value of its own class alone).  A name WITH a quote in it may end anywhere, and what follows is
  read as SQL: a type, a constraint, the end of the statement.

  `Engine` is the database as far as a program depends on it: its answers on arbitrary texts are its own,
  and only what the documentation promises of plain column lists and of exact lengths is assumed.
  `reader` is an engine that can be run.
-/
import VirtualMssql.Lib.TSqlLex
import Mathlib.Data.List.TakeWhile
import Mathlib.Data.List.Forall2

namespace VirtualMssql.SqliteTable

open Delimited List Option
open TSql (wide asciiAlpha)

/-! ## Storage classes and column types -/

/-- The storage class of a value. -/
inductive Kind
  | null
  | integer
  | real
  | text
  | blob
  deriving DecidableEq, Repr

/-- The affinity of a column, by the type it is declared with. -/
inductive Affinity
  | integer
  | real
  | text
  | blob
  deriving DecidableEq, Repr

def Affinity.word : Affinity → List Nat
  | .integer => wide "INTEGER"
  | .real => wide "REAL"
  | .text => wide "TEXT"
  | .blob => wide "BLOB"

/-- The classes that a column stores without conversion. -/
def Affinity.keeps : Affinity → Kind → Bool
  | _, .null => true
  | _, .blob => true
  | .blob, _ => true
  | .integer, k => k = .integer
  | .real, k => k = .real
  | .text, k => k = .text

/-! ## Tables -/

variable {V : Type}

/-- A table as INSERT sees it: its number of columns, and what it holds after one more row; `none` when
    the row is refused. -/
structure Table (V : Type) where
  width : Nat
  insert : List (List V) → List V → Option (List (List V))

/-- The rows, inserted one after the other into the empty table. -/
def Table.fill (t : Table V) (rs : List (List V)) : Option (List (List V)) := rs.foldlM t.insert []

@[simp] theorem Table.fill_nil (t : Table V) : t.fill [] = some [] := rfl

theorem Table.fill_append (t : Table V) (a b : List (List V)) :
    t.fill (a ++ b) = (t.fill a).bind fun rs => b.foldlM t.insert rs := foldlM_append

theorem Table.fill_snoc (t : Table V) (a : List (List V)) (r : List V) :
    t.fill (a ++ [r]) = (t.fill a).bind fun rs => t.insert rs r := by
  rw [t.fill_append]
  cases t.fill a <;> simp

/-- A table that takes all the rows takes the next one. -/
theorem Table.insert_of_fill {t : Table V} {a b rs out : List (List V)} {r : List V}
    (ha : t.fill a = some rs) (h : t.fill (a ++ r :: b) = some out) : ∃ rs', t.insert rs r = some rs' := by
  rw [t.fill_append, ha, bind_some, foldlM_cons] at h
  obtain ⟨rs', hrs', -⟩ := bind_eq_some_iff.mp h
  exact ⟨rs', hrs'⟩

/-- Every value is of a class that its column stores as it is. -/
def Fits (kind : V → Kind) (affs : List Affinity) (r : List V) : Prop :=
  List.Forall₂ (fun a v => a.keeps (kind v) = true) affs r

/-- A table without constraints. -/
structure Table.Plain (kind : V → Kind) (affs : List Affinity) (t : Table V) : Prop where
  width_eq : t.width = affs.length
  insert_eq : ∀ rs r, Fits kind affs r → t.insert rs r = some (rs ++ [r])

/-- A plain table holds what was inserted. -/
theorem Table.Plain.fill_eq {kind : V → Kind} {affs : List Affinity} {t : Table V} (h : t.Plain kind affs)
    {rs : List (List V)} (hrs : ∀ r ∈ rs, Fits kind affs r) : t.fill rs = some rs := by
  have hfold : ∀ (rs before : List (List V)), (∀ r ∈ rs, Fits kind affs r) →
      rs.foldlM t.insert before = some (before ++ rs) := by
    intro rs
    induction rs with
    | nil => intro before _; simp
    | cons r rs ih =>
      intro before hrs
      rw [foldlM_cons, h.insert_eq before r (hrs r mem_cons_self)]
      simpa using ih (before ++ [r]) fun r' hr' => hrs r' (mem_cons_of_mem r hr')
  exact hfold rs [] hrs

/-! ## Column lists -/

/-- A column definition: the name, and the text behind its closing quote. -/
structure Column where
  name : List Nat
  spec : List Nat
  deriving DecidableEq, Repr

def Column.text (c : Column) : List Nat := 34 :: (c.name ++ 34 :: c.spec)

/-- A column with a type and nothing else. -/
def typed (name : List Nat) (a : Affinity) : Column := ⟨name, 32 :: a.word⟩

def listText : List Column → List Nat
  | [] => []
  | [c] => c.text
  | c :: cs => c.text ++ 44 :: listText cs

theorem listText_cons : ∀ (c : Column) (cs : List Column),
    listText (c :: cs) = c.text ++ (cs.map fun d => 44 :: d.text).flatten
  | c, [] => by simp [listText]
  | c, d :: cs => by
    show c.text ++ 44 :: listText (d :: cs) = _
    rw [listText_cons d cs]
    simp

def tableText (table : List Nat) (cols : List Column) : List Nat :=
  wide "CREATE TABLE " ++ (table ++ 40 :: (listText cols ++ [41]))

/-- What ends a column definition: a comma or the closing parenthesis. -/
def inSpec (c : Nat) : Bool := c != 44 && c != 41

/-- Read a column list up to its closing parenthesis, at most `n` columns: the list and the rest. -/
def readColumns : Nat → List Nat → Option (List Column × List Nat)
  | n + 1, 34 :: cs =>
    (readBody 34 cs).bind fun b =>
      match b.2.dropWhile inSpec with
      | 44 :: more => (readColumns n more).map fun l => (⟨b.1, b.2.takeWhile inSpec⟩ :: l.1, l.2)
      | 41 :: rest => some ([⟨b.1, b.2.takeWhile inSpec⟩], rest)
      | _ => none
  | _, _ => none

theorem length_le_listText : ∀ cols : List Column, cols.length ≤ (listText cols).length
  | [] => Nat.zero_le _
  | [c] => by simp [listText, Column.text]
  | c :: d :: cols => by
    have ih := length_le_listText (d :: cols)
    simp only [listText, length_append, length_cons] at ih ⊢
    omega

/-- A definition that is read as it was written. -/
structure Column.Closed (c : Column) : Prop where
  name_quote : 34 ∉ c.name
  spec_head : c.spec.head? ≠ some 34
  spec_in : ∀ x ∈ c.spec, inSpec x = true

theorem closed_typed {name : List Nat} (h : 34 ∉ name) (a : Affinity) : (typed name a).Closed where
  name_quote := h
  spec_head := by simp [typed]
  spec_in := by cases a <;> simp [typed, Affinity.word, wide, inSpec]

theorem takeWhile_stop {α : Type} {p : α → Bool} {a c : List α} {b : α} (ha : ∀ x ∈ a, p x = true)
    (hb : p b = false) : (a ++ b :: c).takeWhile p = a := by
  rw [takeWhile_append_of_pos ha, takeWhile_cons_of_neg (by simp [hb]), append_nil]

theorem dropWhile_stop {α : Type} {p : α → Bool} {a c : List α} {b : α} (ha : ∀ x ∈ a, p x = true)
    (hb : p b = false) : (a ++ b :: c).dropWhile p = b :: c := by
  rw [dropWhile_append_of_pos ha, dropWhile_cons_of_neg (by simp [hb])]

theorem Column.Closed.readBody_text {c : Column} (h : c.Closed) {x : Nat} (hx : x ≠ 34) (rest : List Nat) :
    readBody 34 (c.name ++ 34 :: (c.spec ++ x :: rest)) = some (c.name, c.spec ++ x :: rest) := by
  refine readBody_plain ?_ h.name_quote
  cases hspec : c.spec with
  | nil => simpa using hx
  | cons y ys =>
    have hhead := h.spec_head
    rw [hspec] at hhead
    simpa using hhead

/-- **Round trip**: a list of closed definitions is read as it was written. -/
theorem readColumns_listText {rest : List Nat} : ∀ {cols : List Column} {n : Nat}, cols ≠ [] →
    (∀ c ∈ cols, c.Closed) → cols.length ≤ n → readColumns n (listText cols ++ 41 :: rest) = some (cols, rest)
  | [], _, hne, _, _ => absurd rfl hne
  | [c], 0, _, _, hn => absurd hn (by simp)
  | [c], n + 1, _, h, _ => by
    have hc := h c mem_cons_self
    have htext : listText [c] ++ 41 :: rest = 34 :: (c.name ++ 34 :: (c.spec ++ 41 :: rest)) := by
      simp [listText, Column.text]
    rw [htext, readColumns, hc.readBody_text (by decide), bind_some,
      dropWhile_stop hc.spec_in (by decide), takeWhile_stop hc.spec_in (by decide)]
    rfl
  | c :: d :: cols, 0, _, _, hn => absurd hn (by simp)
  | c :: d :: cols, n + 1, _, h, hn => by
    have hc := h c mem_cons_self
    have ih := @readColumns_listText rest (d :: cols) n (cons_ne_nil d cols)
      (fun x hx => h x (mem_cons_of_mem c hx)) (by simpa using hn)
    have htext : listText (c :: d :: cols) ++ 41 :: rest =
        34 :: (c.name ++ 34 :: (c.spec ++ 44 :: (listText (d :: cols) ++ 41 :: rest))) := by
      simp [listText, Column.text]
    rw [htext, readColumns, hc.readBody_text (by decide), bind_some,
      dropWhile_stop hc.spec_in (by decide), takeWhile_stop hc.spec_in (by decide)]
    simp [ih]

/-! ## Engines -/

/-- The database behind a handle: CREATE TABLE, CREATE INDEX (on the table that the first text made), and
    the text or blob that is bound for a buffer and a length. -/
structure Engine (V : Type) (kind : V → Kind) where
  create : List Nat → Option (Table V)
  index : List Nat → List Nat → Bool
  text : List Nat → Int → List Nat
  blob : List Nat → Int → List Nat
  create_plain : ∀ {table : List Nat} {cols : List (List Nat × Affinity)} {t : Table V},
    (∀ c ∈ table, asciiAlpha c = true ∨ c = 95) → (∀ c ∈ cols, 34 ∉ c.1) →
    create (tableText table (cols.map fun c => typed c.1 c.2)) = some t →
    t.Plain kind (cols.map Prod.snd)
  text_length : ∀ t : List Nat, text t t.length = t
  blob_length : ∀ b : List Nat, blob b b.length = b

/-- What stands after the name of a column: a type, or no type and duplicates silently dropped. -/
inductive Spec
  | typed (a : Affinity)
  | unique
  deriving DecidableEq, Repr

def readSpec (spec : List Nat) : Option Spec :=
  if spec = wide " INTEGER" then some (.typed .integer)
  else if spec = wide " REAL" then some (.typed .real)
  else if spec = wide " TEXT" then some (.typed .text)
  else if spec = wide " BLOB" then some (.typed .blob)
  else if spec = wide " UNIQUE ON CONFLICT IGNORE" then some .unique
  else none

theorem readSpec_word (a : Affinity) : readSpec (32 :: a.word) = some (.typed a) := by
  cases a <;> decide

/-- The specs of a CREATE TABLE; behind the list there may be a comment. -/
def readTable (text : List Nat) : Option (List Spec) :=
  if (wide "CREATE TABLE ").isPrefixOf text then
    match (text.drop 13).dropWhile fun c => c != 40 with
    | _ :: list =>
      match readColumns list.length list with
      | some (cols, rest) =>
        if rest = [] || (wide " --").isPrefixOf rest then cols.mapM fun c => readSpec c.spec else none
      | none => none
    | [] => none
  else none

section Reader

variable [DecidableEq V] (kind : V → Kind)

def Spec.keeps : Spec → Kind → Bool
  | .typed a, k => a.keeps k
  | .unique, _ => true

/-- The row has a value that a UNIQUE column already holds. -/
def duplicates (specs : List Spec) (rs : List (List V)) (r : List V) : Bool :=
  (specs.zip r).zipIdx.any fun c => c.1.1 = .unique && rs.any fun r' => r'[c.2]? = some c.1.2

/-- A table of these columns.  Conversions are left out: a row that needs one is refused. -/
def tableOf (specs : List Spec) : Table V where
  width := specs.length
  insert rs r :=
    if specs.length = r.length ∧ (specs.zip r).all (fun c => c.1.keeps (kind c.2)) = true then
      if duplicates specs rs r then some rs else some (rs ++ [r])
    else none

theorem tableOf_plain (affs : List Affinity) : (tableOf kind (affs.map .typed)).Plain kind affs where
  width_eq := by simp [tableOf]
  insert_eq rs r h := by
    have hlen := h.length_eq
    have hall : ((affs.map Spec.typed).zip r).all (fun c => c.1.keeps (kind c.2)) = true := by
      clear hlen
      induction h with
      | nil => rfl
      | cons ha _ ih => simpa [Spec.keeps, ha] using ih
    have hdup : duplicates (affs.map Spec.typed) rs r = false := by
      rw [duplicates, List.any_eq_false]
      rintro ⟨⟨s, v⟩, i⟩ hmem
      have hs := (of_mem_zip (fst_mem_of_mem_zipIdx hmem)).1
      obtain ⟨a, -, rfl⟩ := mem_map.mp hs
      simp
    simp [tableOf, hlen, hall, hdup]

theorem mapM_readSpec (cols : List (List Nat × Affinity)) :
    (cols.map fun c => typed c.1 c.2).mapM (fun c => readSpec c.spec) = some ((cols.map Prod.snd).map .typed) := by
  induction cols with
  | nil => rfl
  | cons c cols ih =>
    rw [map_cons, mapM_cons, ih]
    simp [typed, readSpec_word]

theorem readTable_typed {table : List Nat} {cols : List (List Nat × Affinity)} {specs : List Spec}
    (htable : ∀ c ∈ table, asciiAlpha c = true ∨ c = 95) (hcols : ∀ c ∈ cols, 34 ∉ c.1)
    (h : readTable (tableText table (cols.map fun c => typed c.1 c.2)) = some specs) :
    specs = (cols.map Prod.snd).map .typed := by
  have hname : ∀ c ∈ table, (c != 40) = true := by
    intro c hc
    rcases htable c hc with h | h
    · simp only [asciiAlpha, Bool.or_eq_true, Bool.and_eq_true, decide_eq_true_eq] at h
      simp only [bne_iff_ne]
      omega
    · subst h; decide
  have hprefix : (wide "CREATE TABLE ").isPrefixOf (tableText table (cols.map fun c => typed c.1 c.2)) = true := by
    simp [tableText]
  have hdrop : (tableText table (cols.map fun c => typed c.1 c.2)).drop 13 =
      table ++ 40 :: (listText (cols.map fun c => typed c.1 c.2) ++ [41]) :=
    @drop_left _ (wide "CREATE TABLE ") _
  rw [readTable, if_pos hprefix, hdrop, dropWhile_stop hname (by decide)] at h
  by_cases hne : cols = []
  · subst hne
    simp [listText, readColumns] at h
  · have hclosed : ∀ c ∈ cols.map (fun c => typed c.1 c.2), c.Closed := by
      intro c hc
      obtain ⟨x, hx, rfl⟩ := mem_map.mp hc
      exact closed_typed (hcols x hx) x.2
    generalize hlist : cols.map (fun c => typed c.1 c.2) = l at h hclosed
    have hread := @readColumns_listText [] l (listText l ++ [41]).length (by simpa [← hlist] using hne) hclosed
      (by have := length_le_listText l; rw [length_append]; omega)
    simp only [hread, decide_true, Bool.true_or, if_true] at h
    rw [← hlist, mapM_readSpec] at h
    exact (some.inj h).symm

/-- **An engine that can be run**: it reads plain column lists and the one constraint. -/
def reader : Engine V kind where
  create text := (readTable text).map (tableOf kind)
  index _ _ := true
  text t n := if n < 0 then t.takeWhile (fun c => c != 0) else t.take n.toNat
  blob b n := b.take n.toNat
  create_plain := by
    intro table cols t htable hcols h
    obtain ⟨specs, hspecs, rfl⟩ := map_eq_some_iff.mp h
    rw [readTable_typed htable hcols hspecs]
    exact tableOf_plain kind _
  text_length t := by rw [if_neg (by omega)]; simp
  blob_length b := by simp

end Reader

end VirtualMssql.SqliteTable
