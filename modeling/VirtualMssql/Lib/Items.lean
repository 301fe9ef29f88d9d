/-
  ITEMS — texts that are a row of items with a separator between them.

  An item is read off the front of a text by `item`; nothing is assumed about how it finds its own end.  `readAll` reads
  items as long as there is text, at most `room` of them; behind an item the text ends or the separator follows, and a
  separator at the very end is taken too.  The reader may carry a state along (memory, a counter).

  What matters of an item is `ReadsAs item t v`: whatever follows, `t` is read as `v` and nothing more is taken.  Three
  facts come from it: a row of such items is read back (`readAll_row`), what is accepted is a row of the spellings
  of its items (`row_of_readAll`), and a text is a row of items in one way only (`row_unique`).
-/
import Mathlib.Data.List.Basic

namespace VirtualMssql.Items

open List

variable {α V S W : Type}

/-! ## Rows -/

/-- What stands behind an item: the other items, each after a separator, and perhaps one more separator. -/
def behind (sep : α) (trailing : Bool) : List (List α) → List α
  | [] => if trailing then [sep] else []
  | t :: ts => sep :: (t ++ behind sep trailing ts)

/-- The items with the separator between them. -/
def row (sep : α) (trailing : Bool) : List (List α) → List α
  | [] => []
  | t :: ts => t ++ behind sep trailing ts

/-- What may stand behind an item. -/
def Follows (sep : α) (rest : List α) : Prop := rest = [] ∨ ∃ more, rest = sep :: more

theorem behind_cases (sep : α) (trailing : Bool) (ts : List (List α)) :
    (behind sep trailing ts = [] ∧ ts = [] ∧ trailing = false) ∨
      behind sep trailing ts = sep :: row sep trailing ts := by
  cases ts with
  | nil =>
    cases trailing with
    | true => exact .inr rfl
    | false => exact .inl ⟨rfl, rfl, rfl⟩
  | cons t ts => exact .inr rfl

theorem follows_behind (sep : α) (trailing : Bool) (ts : List (List α)) : Follows sep (behind sep trailing ts) :=
  (behind_cases sep trailing ts).imp And.left fun h => ⟨_, h⟩

theorem mem_behind {sep c : α} {trailing : Bool} : ∀ {ts : List (List α)}, c ∈ behind sep trailing ts →
    c = sep ∨ ∃ t ∈ ts, c ∈ t
  | [], h => by
    cases trailing with
    | true => exact .inl (mem_singleton.mp h)
    | false => cases h
  | t :: ts, h => by
    rcases mem_cons.mp h with rfl | h
    · exact .inl rfl
    · rcases mem_append.mp h with h | h
      · exact .inr ⟨t, mem_cons_self, h⟩
      · rcases mem_behind h with hsep | ⟨u, hu, hc⟩
        · exact .inl hsep
        · exact .inr ⟨u, mem_cons_of_mem t hu, hc⟩

theorem mem_row {sep c : α} {trailing : Bool} {ts : List (List α)} (h : c ∈ row sep trailing ts) :
    c = sep ∨ ∃ t ∈ ts, c ∈ t := by
  cases ts with
  | nil => cases h
  | cons t ts =>
    have hbehind : c ∈ behind sep trailing (t :: ts) := mem_cons_of_mem sep h
    exact mem_behind hbehind

/-! ## Reading -/

/-- Read items to the end of the text. -/
def readAll [DecidableEq α] (item : S → List α → Option (V × List α × S)) (sep : α) :
    Nat → S → List α → Option (List V × S)
  | _, s, [] => some ([], s)
  | 0, _, _ :: _ => none
  | room + 1, s, c :: t =>
    match item s (c :: t) with
    | none => none
    | some (v, [], s') => some ([v], s')
    | some (v, d :: rest, s') =>
      if d = sep then (readAll item sep room s' rest).map fun r => (v :: r.1, r.2) else none

/-- `t` is read as `v`, and no more than `t`. -/
def ReadsAs (item : S → List α → Option (V × List α × S)) (sep : α) (t : List α) (v : V) : Prop :=
  t ≠ [] ∧ ∀ s rest, Follows sep rest → ∃ s', item s (t ++ rest) = some (v, rest, s')

variable {item : S → List α → Option (V × List α × S)} {sep : α}

theorem readAll_nil [DecidableEq α] (room : Nat) (s : S) : readAll item sep room s [] = some ([], s) := by
  cases room <;> rfl

/-- **A row is read back.** -/
theorem readAll_row [DecidableEq α] (trailing : Bool) : ∀ {ps : List (List α × V)} {room : Nat} (s : S),
    (∀ p ∈ ps, ReadsAs item sep p.1 p.2) → ps.length ≤ room →
    ∃ s', readAll item sep room s (row sep trailing (ps.map Prod.fst)) = some (ps.map Prod.snd, s')
  | [], room, s, _, _ => ⟨s, readAll_nil room s⟩
  | p :: ps, 0, _, _, hroom => absurd hroom (Nat.not_succ_le_zero _)
  | p :: ps, room + 1, s, hps, hroom => by
    obtain ⟨hne, hread⟩ := hps p mem_cons_self
    obtain ⟨s₁, hitem⟩ := hread s _ (follows_behind sep trailing (ps.map Prod.fst))
    obtain ⟨c, t, hp⟩ := exists_cons_of_ne_nil hne
    rw [hp, cons_append] at hitem
    rw [map_cons, row, hp, cons_append, readAll, hitem]
    rcases behind_cases sep trailing (ps.map Prod.fst) with ⟨hb, hnil, -⟩ | hb
    · rw [hb, map_eq_nil_iff.mp hnil]
      exact ⟨s₁, rfl⟩
    · obtain ⟨s₂, hrest⟩ := readAll_row trailing s₁ (fun q hq => hps q (mem_cons_of_mem p hq))
        (Nat.le_of_succ_le_succ hroom)
      rw [hb]
      simp only [if_true, hrest, Option.map_some]
      exact ⟨s₂, rfl⟩

/-- What was read of a text: an item, and nothing behind it, or a separator and what is read behind that. -/
theorem readAll_cons [DecidableEq α] {room : Nat} {s s' : S} {c : α} {t : List α} {vs : List V}
    (h : readAll item sep room s (c :: t) = some (vs, s')) :
    ∃ room' v rest s₁, room = room' + 1 ∧ item s (c :: t) = some (v, rest, s₁) ∧ ((rest = [] ∧ vs = [v]) ∨
        ∃ rest' vs', rest = sep :: rest' ∧ vs = v :: vs' ∧ readAll item sep room' s₁ rest' = some (vs', s')) := by
  cases room with
  | zero => cases h
  | succ room =>
    rw [readAll] at h
    cases hread : item s (c :: t) with
    | none => rw [hread] at h; cases h
    | some out =>
      obtain ⟨v, rest, s₁⟩ := out
      rw [hread] at h
      refine ⟨room, v, rest, s₁, rfl, rfl, ?_⟩
      cases rest with
      | nil =>
        cases h
        exact .inl ⟨rfl, rfl⟩
      | cons d rest =>
        dsimp only at h
        split_ifs at h with hd
        obtain ⟨⟨vs', s₂⟩, hrest, hout⟩ := Option.map_eq_some_iff.mp h
        cases hout
        exact .inr ⟨rest, vs', by rw [hd], rfl, hrest⟩

/-- **What is accepted is a row**, if every item that is read has a spelling. -/
theorem row_of_readAll [DecidableEq α] {text : W → List α} {value : W → V} {Ok : W → Prop}
    (hitem : ∀ {s t v rest s'}, item s t = some (v, rest, s') → ∃ w, Ok w ∧ value w = v ∧ t = text w ++ rest) :
    ∀ {room : Nat} {s : S} {t : List α} {vs : List V} {s' : S}, readAll item sep room s t = some (vs, s') →
    ∃ (ws : List W) (trailing : Bool), (∀ w ∈ ws, Ok w) ∧ ws.map value = vs ∧ ws.length ≤ room ∧
      t = row sep trailing (ws.map text)
  | room, s, [], vs, s', h => by
    rw [readAll_nil] at h
    cases h
    exact ⟨[], false, by simp, rfl, Nat.zero_le _, rfl⟩
  | room, s, c :: t, vs, s', h => by
    obtain ⟨room', v, rest, s₁, rfl, hread, hrest⟩ := readAll_cons h
    obtain ⟨w, hw, hv, htext⟩ := hitem hread
    rcases hrest with ⟨rfl, rfl⟩ | ⟨rest', vs', rfl, rfl, hrest⟩
    · exact ⟨[w], false, by simpa using hw, by simp [hv], by simp, by simpa [row, behind] using htext⟩
    · obtain ⟨ws, trailing, hok, hvs, hlen, hrow⟩ := row_of_readAll hitem hrest
      -- nothing behind the separator: it was the trailing one
      refine ⟨w :: ws, trailing || ws.isEmpty, forall_mem_cons.mpr ⟨hw, hok⟩, by simp [hv, hvs], by simpa using hlen,
        ?_⟩
      rw [htext, hrow]
      cases ws with
      | nil | cons u us => simp [row, behind]
termination_by room => room

/-- **A text is a row in one way only.** -/
theorem row_unique (s : S) {b b' : Bool} : ∀ {ps qs : List (List α × V)},
    (∀ p ∈ ps, ReadsAs item sep p.1 p.2) → (∀ q ∈ qs, ReadsAs item sep q.1 q.2) →
    row sep b (ps.map Prod.fst) = row sep b' (qs.map Prod.fst) → ps = qs ∧ (ps ≠ [] → b = b') := by
  intro ps
  induction ps with
  | nil =>
    intro qs _ hqs h
    cases qs with
    | nil => exact ⟨rfl, fun hne => absurd rfl hne⟩
    | cons q qs => exact absurd (append_eq_nil_iff.mp h.symm).1 (hqs q mem_cons_self).1
  | cons p ps ih =>
    intro qs hps hqs h
    cases qs with
    | nil => exact absurd (append_eq_nil_iff.mp h).1 (hps p mem_cons_self).1
    | cons q qs =>
      obtain ⟨s₁, hp⟩ := (hps p mem_cons_self).2 s _ (follows_behind sep b (ps.map Prod.fst))
      obtain ⟨s₂, hq⟩ := (hqs q mem_cons_self).2 s _ (follows_behind sep b' (qs.map Prod.fst))
      rw [map_cons, map_cons, row, row] at h
      rw [h, hq] at hp
      injection hp with hp
      injection hp with hvalue hp
      injection hp with hbehind _
      rw [hbehind] at h
      have hpq : p = q := Prod.ext (append_cancel_right h) hvalue.symm
      have hps' : ∀ x ∈ ps, ReadsAs item sep x.1 x.2 := fun x hx => hps x (mem_cons_of_mem p hx)
      have hqs' : ∀ x ∈ qs, ReadsAs item sep x.1 x.2 := fun x hx => hqs x (mem_cons_of_mem q hx)
      rcases behind_cases sep b (ps.map Prod.fst) with ⟨hb, hnil, rfl⟩ | hb <;>
        rcases behind_cases sep b' (qs.map Prod.fst) with ⟨hb', hnil', rfl⟩ | hb'
      · rw [hpq, map_eq_nil_iff.mp hnil, map_eq_nil_iff.mp hnil']
        exact ⟨rfl, fun _ => rfl⟩
      · rw [hb, hb'] at hbehind
        cases hbehind
      · rw [hb, hb'] at hbehind
        cases hbehind
      · have hrows : row sep b (ps.map Prod.fst) = row sep b' (qs.map Prod.fst) := by
          rw [hb, hb'] at hbehind
          exact (List.cons.inj hbehind).2.symm
        obtain ⟨rfl, hflag⟩ := ih hps' hqs' hrows
        refine ⟨by rw [hpq], fun _ => ?_⟩
        cases ps with
        | nil =>
          -- both rows end here, and both have something behind the last item
          cases b with
          | false => cases hb
          | true =>
            cases b' with
            | false => cases hb'
            | true => rfl
        | cons r rs => exact hflag (cons_ne_nil _ _)

end VirtualMssql.Items
