/-
  WHAT ARGUMENTS ARE USED FOR — from the text that is meant to the names and words the module works with.

  A text is given to an argument as a string literal, its quotes doubled, or bare.  `Given` is such a text with its
  spelling.  What becomes of it:

    * names are taken out of their quotes and checked; the metadata is read under that name, and the name is then
      kept in 128 bytes, for the scans and, once more, for the writes.  An identifier of 128 characters passes the
      check and loses its last character there;
    * a query is taken out of its quotes, and its doubled quotes stay doubled;
    * of a connection key the loop takes the first quote and nobody takes the last, so a literal is never accepted;
    * of the words only the beginning is compared.

  `arguments_meant_iff` has the four cases with their exact conditions.
-/
import VirtualMssql.Arguments
import Mathlib.Data.List.TakeDrop

namespace VirtualMssql.ArgumentUse

open Arguments Connect Connstr Delimited List Option
open MetaCache Utf
open TSql (wide)

/-! ## Texts and their spellings -/

/-- A text as a string literal, or bare where it needs no quotes. -/
inductive Given
  | literal (s : List Nat)
  | bare (s : List Nat) (plain : 39 ∉ s)

namespace Given

def text : Given → List Nat
  | literal s => s
  | bare s _ => s

/-- What stands behind the `=`. -/
def spell : Given → List Nat
  | literal s => 39 :: (double 39 s ++ [39])
  | bare s _ => s

def isBare : Given → Bool
  | literal _ => false
  | bare _ _ => true

end Given

/-! ## What is used -/

/-- `strncpy_s` with `_TRUNCATE` into a buffer of 128 bytes. -/
def storedName (v : List Nat) : List Nat := v.take 127

/-- The schema and the table of the metadata read, of the scans and of the writes. -/
structure TableUse where
  metadata : List Nat × List Nat
  scan : List Nat × List Nat
  dml : List Nat × List Nat
  deriving DecidableEq

/-- The names of `vms_meta_columns`, of the VmsVtab and of `vms_dml_init`. -/
def tableUse (c : ConnectArgs) : TableUse where
  metadata := (c.schema, c.table)
  scan := (storedName c.schema, storedName c.table)
  dml := (storedName (storedName c.schema), storedName (storedName c.table))

/-- The same names everywhere. -/
def TableUse.exactly (schema table : List Nat) : TableUse := ⟨(schema, table), (schema, table), (schema, table)⟩

/-- The arguments that take one of two words. -/
inductive WordKey
  | source
  | mode
  | spatial
  | metadataMode
  deriving DecidableEq

def WordKey.key : WordKey → String
  | .source => "source="
  | .mode => "mode="
  | .spatial => "spatial="
  | .metadataMode => "metadata_mode="

def WordKey.words : WordKey → String × String
  | .source => ("query", "table")
  | .mode => ("rw", "ro")
  | .spatial => ("wkt", "wkb")
  | .metadataMode => ("cached", "live")

/-! ## Quotes -/

theorem quoted_literal (s : List Nat) : quoted (39 :: (s ++ [39])) = some s := by
  have hlast : (39 :: (s ++ [39])).getLast? = some 39 := by
    rw [← cons_append, getLast?_append]
    rfl
  rw [quoted, if_pos ⟨rfl, by simp, hlast⟩]
  simp

variable {v : List Nat}

theorem unquoted_of_head (h : v.head? ≠ some 39) : unquoted v = v := by
  rw [unquoted, quoted, if_neg fun hq => h hq.1]
  rfl

variable {s : List Nat}

theorem head_ne_quote (h : 39 ∉ s) : s.head? ≠ some 39 := fun hs => h (mem_of_mem_head? hs)

theorem skipQuote_of_head (h : v.head? ≠ some 39) : skipQuote v = v := by
  cases v with
  | nil => rfl
  | cons c v =>
    have hc : c ≠ 39 := fun heq => h (by rw [heq]; rfl)
    unfold skipQuote
    split
    · rename_i heq
      exact absurd (List.cons.inj heq).1 hc
    · rfl

/-- **A value out of its quotes**: the text with its quotes doubled, or as it is. -/
theorem unquoted_spell (g : Given) : unquoted g.spell = if g.isBare then g.text else double 39 g.text := by
  cases g with
  | literal s =>
    rw [Given.spell, unquoted, quoted_literal]
    rfl
  | bare s plain => exact unquoted_of_head (head_ne_quote plain)

theorem unquoted_spell_of_plain {g : Given} (h : 39 ∉ g.text) : unquoted g.spell = g.text := by
  rw [unquoted_spell, double_of_not_mem h, ite_self]

theorem quote_notMem_of_valid (h : Valid s) : 39 ∉ s := fun hmem =>
  absurd (identChar_of_valid h 39 hmem) (by decide)

/-! ## Names -/

theorem storedName_eq_iff : storedName s = s ↔ s.length < 128 := by
  rw [storedName, take_eq_self_iff]
  omega

/-- **The names stay the same** exactly if both fit into 127 characters. -/
theorem tableUse_exactly_iff {c : ConnectArgs} {schema table : List Nat} (hs : c.schema = schema)
    (ht : c.table = table) :
    tableUse c = TableUse.exactly schema table ↔ schema.length < 128 ∧ table.length < 128 := by
  rw [← storedName_eq_iff, ← storedName_eq_iff, tableUse, TableUse.exactly, hs, ht]
  simp only [TableUse.mk.injEq, Prod.mk.injEq, true_and]
  constructor
  · exact fun h => h.1
  · rintro ⟨h₁, h₂⟩
    exact ⟨⟨h₁, h₂⟩, by rw [h₁, h₁], by rw [h₂, h₂]⟩

/-! ## The key of a connection -/

/-- **A key in quotes keeps its last quote.** -/
theorem unquoted_key {g : Given} (h : Valid g.text) :
    unquoted (skipQuote g.spell) = if g.isBare then g.text else g.text ++ [39] := by
  have hplain := quote_notMem_of_valid h
  cases g with
  | literal s =>
    obtain ⟨c, t, rfl⟩ : ∃ c t, s = c :: t := by
      cases s with
      | nil => cases h
      | cons c t => exact ⟨c, t, rfl⟩
    have hdouble : double 39 (c :: t) = c :: t := double_of_not_mem hplain
    show unquoted (double 39 (c :: t) ++ [39]) = c :: t ++ [39]
    rw [hdouble]
    exact unquoted_of_head (head_ne_quote (s := c :: t) hplain)
  | bare s plain =>
    rw [Given.spell, skipQuote_of_head (head_ne_quote plain)]
    exact unquoted_of_head (head_ne_quote plain)

theorem not_valid_quote (s : List Nat) : ¬ Valid (s ++ [39]) := fun h =>
  quote_notMem_of_valid h (mem_append_right _ (mem_singleton.mpr rfl))

/-- **A known key is accepted exactly if it is bare**, and is then the one that is looked up. -/
theorem connKey_known_iff {env : Env} {a : Args} {conn : Option Given}
    (hconn : a.connKey = conn.map fun g => skipQuote g.spell) (hkeys : ∀ g ∈ conn, env.Knows g.text) :
    (a.unquoted.connKey.elim (.ok ()) env.checkKey = .ok () ↔ ∀ g ∈ conn, g.isBare = true) ∧
      ((∀ g ∈ conn, g.isBare = true) → a.unquoted.connKey = conn.map Given.text) := by
  have hkey : a.unquoted.connKey = conn.map fun g => unquoted (skipQuote g.spell) := by
    show a.connKey.map unquoted = _
    rw [hconn, Option.map_map]
    rfl
  rw [connKey_ok_iff, hkey]
  cases conn with
  | none => simp
  | some g =>
    have hknown : env.Knows g.text := hkeys g rfl
    simp only [map_some, mem_def, Option.some.injEq, forall_eq', unquoted_key hknown.1]
    cases g.isBare with
    | true => exact ⟨iff_of_true hknown rfl, fun _ => rfl⟩
    | false => exact ⟨iff_of_false (fun hno => not_valid_quote g.text hno.1) Bool.false_ne_true, by simp⟩

/-! ## Queries -/

/-- The quotes that are added are there behind the conversion. -/
theorem utf8ToWide_double_length : ∀ (n : Nat) {s : List Nat}, s.length ≤ n →
    (utf8ToWide (double 39 s)).length = (utf8ToWide s).length + s.count 39
  | n, s, hn => by
    by_cases hmem : 39 ∈ s
    · obtain ⟨a, b, rfl⟩ := append_of_mem hmem
      cases n with
      | zero => simp at hn
      | succ n =>
        simp only [length_append, length_cons] at hn
        have ha := utf8ToWide_double_length n (s := a) (by omega)
        have hb := utf8ToWide_double_length n (s := b) (by omega)
        have hquote : utf8ToWide (39 :: double 39 b) = 39 :: utf8ToWide (double 39 b) :=
          utf8ToWide_ascii (by decide) [] _
        rw [double_append, double_cons_self, utf8ToWide_ascii (by decide), hquote, utf8ToWide_ascii (by decide)]
        simp only [length_append, length_cons, count_append, count_cons_self, ha, hb]
        omega
    · rw [double_of_not_mem hmem, count_eq_zero_of_not_mem hmem]
      rfl

/-- **A query with quotes is not the same with its quotes doubled.** -/
theorem copyWide_double {w : List Nat} {cap : Nat} (h : copyWide s cap = some w) (hquote : 39 ∈ s) :
    copyWide (double 39 s) cap ≠ some w := by
  intro hdouble
  have hlen := utf8ToWide_double_length s.length (s := s) le_rfl
  rw [← copyWide_some h, ← copyWide_some hdouble] at hlen
  have hpos := count_pos_iff.mpr hquote
  omega

/-! ## Words -/

/-- A word without a quote begins a literal exactly if it begins its text. -/
theorem prefix_literal_iff : ∀ {word s : List Nat}, 39 ∉ word → (word <+: double 39 s ++ [39] ↔ word <+: s)
  | [], _, _ => iff_of_true nil_prefix nil_prefix
  | c :: word, [], h => by
    have hc : c ≠ 39 := fun heq => h (heq ▸ mem_cons_self)
    simp [hc]
  | c :: word, d :: s, h => by
    rw [mem_cons, not_or] at h
    by_cases hd : d = 39
    · have hne : c ≠ d := fun heq => h.1 (by rw [heq, hd])
      rw [hd] at hne ⊢
      rw [double_cons_self, cons_append, cons_prefix_cons, cons_prefix_cons]
      exact iff_of_false (fun h => hne h.1) fun h => hne h.1
    · rw [double_cons_ne hd, cons_append, cons_prefix_cons, cons_prefix_cons, prefix_literal_iff h.2]

theorem prefix_spell_iff {word : List Nat} (h : 39 ∉ word) (g : Given) :
    word.isPrefixOf (skipQuote g.spell) = true ↔ word <+: g.text := by
  rw [ isPrefixOf_iff_prefix]
  cases g with
  | literal s => exact prefix_literal_iff h
  | bare s plain =>
    rw [Given.spell, skipQuote_of_head (head_ne_quote plain)]
    exact Iff.rfl

theorem parseFlag_ok_iff {yes no message : String} {set : Bool → Args} :
    (∃ b, (parseFlag v yes no set message).2 = .ok b) ↔
      (wide yes).isPrefixOf (skipQuote v) = true ∨ (wide no).isPrefixOf (skipQuote v) = true := by
  rw [parseFlag]
  split_ifs with hyes hno
  · exact iff_of_true ⟨_, rfl⟩ (.inl hyes)
  · exact iff_of_true ⟨_, rfl⟩ (.inr hno)
  · exact iff_of_false (by simp) fun h => h.elim hyes hno

/-- **A word is accepted by its beginning.** -/
theorem parseArg_word_iff (k : WordKey) (g : Given) (a : Args) :
    (∃ b, (parseArg a (wide k.key ++ g.spell)).2 = .ok b) ↔
      wide k.words.1 <+: g.text ∨ wide k.words.2 <+: g.text := by
  have hplain : 39 ∉ wide k.words.1 ∧ 39 ∉ wide k.words.2 := by cases k <;> decide
  rw [← prefix_spell_iff hplain.1, ← prefix_spell_iff hplain.2]
  cases k with
  | source | mode | spatial | metadataMode => exact parseFlag_ok_iff

/-! ## The whole call -/

section Call
variable {env : Env} {argv : List (List Nat)} {a : Args} {conn : Option Given}

/-- A table, behind its checks. -/
theorem check_names {x y : Given} (hsource : a.isQuery = false) (hs : a.schema = some x.spell)
    (ht : a.table = some y.spell)
    (hx : Valid x.text) (hy : Valid y.text) (hshadow : vmsVtabShadowName y.text = false) :
    a.unquoted.check env = (a.unquoted.connKey.elim (.ok ()) env.checkKey).map fun _ => .table
      { schema := x.text, table := y.text, rw := a.rw, spatialWkt := a.spatialWkt
        metadataCached := a.metadataCached } := by
  have hschema : a.unquoted.schema = some x.text := by
    show a.schema.map unquoted = _
    rw [hs, map_some, unquoted_spell_of_plain (quote_notMem_of_valid hx)]
  have htable : a.unquoted.table = some y.text := by
    show a.table.map unquoted = _
    rw [ht, map_some, unquoted_spell_of_plain (quote_notMem_of_valid hy)]
  have hquery : a.unquoted.isQuery = false := hsource
  have hvx : vmsMetaIdentValid x.text 128 = true := hx
  have hvy : vmsMetaIdentValid y.text 128 = true := hy
  rw [Args.check, hschema, htable, hquery]
  simp only [getD_some, hvx, hvy, any_some, hshadow, Bool.not_true, Bool.or_self, Bool.and_false,
    Bool.false_eq_true, if_false]
  cases a.unquoted.connKey.elim (.ok ()) env.checkKey <;> rfl

/-- A query, behind its checks. -/
theorem check_query_iff {q : Given} {w : List Nat} (hsource : a.isQuery = true) (hq : a.query = some q.spell)
    (hshadow : a.unquoted.table.any vmsVtabShadowName = false) : a.unquoted.check env = .ok (.query w) ↔
      a.unquoted.connKey.elim (.ok ()) env.checkKey = .ok () ∧ copyWide (unquoted q.spell) 32768 = some w := by
  have hquery : a.unquoted.query = some (unquoted q.spell) := by
    show a.query.map unquoted = _
    rw [hq, map_some]
  have hkind : a.unquoted.isQuery = true := hsource
  rw [Args.check, hkind, hquery]
  simp only [Bool.not_true, Bool.false_and, Bool.false_eq_true, if_false, hshadow, getD_some, if_true]
  cases a.unquoted.connKey.elim (.ok ()) env.checkKey with
  | error m => simp
  | ok =>
    cases copyWide (unquoted q.spell) 32768 with
    | none => simp
    | some w' => simp

/-- **What arguments mean.**  A table: its names are used as they are given, by the metadata read, the scans and the
    writes, exactly if they have fewer than 128 characters and the connection key is not a literal.  A query: exactly if
    it has no quote, and the same for the key.  A word is accepted exactly if one of the two words begins it. -/
theorem arguments_meant_iff (h : Parsed argv a) (hconn : a.connKey = conn.map fun g => skipQuote g.spell)
    (hkeys : ∀ g ∈ conn, env.Knows g.text) :
    (∀ x y : Given, a.isQuery = false → a.schema = some x.spell → a.table = some y.spell → Valid x.text → Valid y.text →
      vmsVtabShadowName y.text = false →
      ((∃ c, (connectArguments (some env) argv).2 = .ok (.table c) ∧ tableUse c = .exactly x.text y.text ∧
          a.unquoted.connKey = conn.map Given.text) ↔
        (x.text.length < 128 ∧ y.text.length < 128) ∧ ∀ g ∈ conn, g.isBare = true)) ∧
      (∀ (q : Given) (w : List Nat), a.isQuery = true → a.query = some q.spell →
        a.unquoted.table.any vmsVtabShadowName = false → q.text.length < 32768 → copyWide q.text 32768 = some w →
        (((connectArguments (some env) argv).2 = .ok (.query w) ∧ a.unquoted.connKey = conn.map Given.text) ↔
          39 ∉ q.text ∧ ∀ g ∈ conn, g.isBare = true)) ∧
      ∀ (k : WordKey) (g : Given) (b : Args), (∃ b', (parseArg b (wide k.key ++ g.spell)).2 = .ok b') ↔
        wide k.words.1 <+: g.text ∨ wide k.words.2 <+: g.text := by
  obtain ⟨hknown, hmeant⟩ := connKey_known_iff hconn hkeys
  have hcall : (connectArguments (some env) argv).2 = a.unquoted.check env := by rw [connectArguments_of_parsed h]
  refine ⟨fun x y hsource hs ht hx hy hshadow => ?_, fun q w hsource hq hshadow _ hwide => ?_, parseArg_word_iff⟩
  · rw [hcall, check_names hsource hs ht hx hy hshadow, ← hknown]
    cases hkey : a.unquoted.connKey.elim (.ok ()) env.checkKey with
    | error m => exact iff_of_false (fun hno => absurd hno.choose_spec.1 (by simp [Except.map])) (by simp)
    | ok =>
      rw [and_iff_left rfl]
      constructor
      · rintro ⟨c, hc, huse, -⟩
        obtain rfl := Source.table.inj (Except.ok.inj hc)
        exact (tableUse_exactly_iff rfl rfl).mp huse
      · intro hlen
        exact ⟨_, rfl, (tableUse_exactly_iff rfl rfl).mpr hlen, hmeant (hknown.mp hkey)⟩
  · rw [hcall, check_query_iff hsource hq hshadow, hknown]
    have hquote : copyWide (unquoted q.spell) 32768 = some w ↔ 39 ∉ q.text := by
      by_cases hmem : 39 ∈ q.text
      · -- bare texts have no quote
        have hliteral : q.isBare = false := by
          cases q with
          | literal s => rfl
          | bare s plain => exact absurd hmem plain
        rw [unquoted_spell, hliteral]
        exact iff_of_false (copyWide_double hwide hmem) (not_not.mpr hmem)
      · rw [unquoted_spell_of_plain hmem]
        exact iff_of_true hwide hmem
    rw [hquote]
    exact ⟨fun hboth => ⟨hboth.1.2, hboth.1.1⟩, fun hboth => ⟨⟨hboth.2, hboth.1⟩, hmeant hboth.2⟩⟩

end Call

def notesArgv : List (List Nat) := [wide "schema='dbo'", wide "table=notes", wide "conn=main"]

def notesArgs : Args := { schema := some (wide "'dbo'"), table := some (wide "notes"), connKey := some (wide "main") }

/-- The provider knows one key, and answers it with the active profile under another name of the application. -/
def notesEnv : Env where
  profile := { server := wide "h", auth := .windows }
  provider := some fun key => if key = wide "main" then some (wide "server=h;auth=windows;app=notes") else none

theorem notesEnv_knows : notesEnv.Knows (wide "main") := by
  refine ⟨by decide, _, rfl, wide "server=h;auth=windows;app=notes", by rfl, _, rfl, by rfl⟩

theorem arguments_meant_notes : Parsed notesArgv notesArgs ∧
      ∃ c, (connectArguments (some notesEnv) notesArgv).2 = .ok (.table c) ∧
        tableUse c = .exactly (wide "dbo") (wide "notes") ∧ notesArgs.unquoted.connKey = some (wide "main") := by
  have hparsed : Parsed notesArgv notesArgs := ⟨by rfl, by rfl⟩
  have hkeys : ∀ g ∈ some (Given.bare (wide "main") (by decide)), notesEnv.Knows g.text := by
    intro g hg
    rw [← some.inj hg]
    exact notesEnv_knows
  have hmeant := (arguments_meant_iff hparsed rfl hkeys).1 (.literal (wide "dbo"))
    (.bare (wide "notes") (by decide)) rfl rfl
    rfl (by decide) (by decide) (by decide)
  refine ⟨hparsed, hmeant.mpr ⟨⟨by decide, by decide⟩, fun g hg => ?_⟩⟩
  rw [← some.inj hg]
  rfl

/-- A table of 128 letters is scanned under 127 of them; a query keeps its doubled quotes; a key that is known is
    refused in quotes; `queryfoo`, `rwx`, `wktx` and `cachedx` are accepted. -/
theorem arguments_not_meant :
    (connectArguments (some notesEnv) [wide "schema=dbo", wide "table=" ++ List.replicate 128 97]).2 =
        .ok (.table { schema := wide "dbo", table := List.replicate 128 97 }) ∧
      (tableUse { schema := wide "dbo", table := List.replicate 128 97 }).scan = (wide "dbo", List.replicate 127 97) ∧
      (connectArguments (some notesEnv) [wide "source=query", wide "query='SELECT ''x'''"]).2 =
        .ok (.query (wide "SELECT ''x''")) ∧
      (connectArguments (some notesEnv) [wide "schema=dbo", wide "table=notes", wide "conn='main'"]).2 =
        .error (wide "virtualmssql: invalid conn key") ∧
      (parseArg {} (wide "source=queryfoo")).2.isOk = true ∧ (parseArg {} (wide "mode='rwx'")).2.isOk = true ∧
      (parseArg {} (wide "spatial=wktx")).2.isOk = true ∧
        (parseArg {} (wide "metadata_mode=cachedx")).2.isOk = true := by
  refine ⟨?_, by decide, by rfl, by rfl, by decide +kernel⟩
  set_option maxRecDepth 2000 in rfl

end VirtualMssql.ArgumentUse
