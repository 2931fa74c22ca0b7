import PaperTrade.Runner.Dedup
import PaperTrade.Runner.XauIndicators

/-!
# The book of `XauM30RunnerStrategy`

What bar exits, price alerts and openings do to the book, in any order. A `Move` is one signal together with
what it does to the book: a close, a stop moved to the entry, or an opening, which needs room, a bracket
around the entry, and a distance to the positions of its side. Every event of the strategy is a number of
moves, and every move keeps a book `Sound`.

The book does not store the ATR that a position was opened with. It is recorded beside the run, with the
latest opening first.
-/

namespace PaperTrade.Runner

open PaperTrade.Runtime Dispatcher

/-! ## Dictionaries -/

lemma get?_of_erase {κ α : Type} [DecidableEq κ] {d : Dict κ α} {k k' : κ} {v : α}
    (h : Dict.get? (d.erase k) k' = some v) : k' ≠ k ∧ d.get? k' = some v := by
  have hmem := (d.mem_erase k _).mp ((Dict.get?_some_iff _ _ _).mp h)
  exact ⟨hmem.2, (Dict.get?_some_iff _ _ _).mpr hmem.1⟩

lemma get?_erase_of_ne {κ α : Type} [DecidableEq κ] (d : Dict κ α) {k k' : κ} (h : k' ≠ k) :
    Dict.get? (d.erase k) k' = d.get? k' := by
  refine Option.ext fun v => ?_
  rw [Dict.get?_some_iff, Dict.get?_some_iff, Table.mem_erase]
  exact and_iff_left h

lemma length_set_le {κ α : Type} [DecidableEq κ] (d : Dict κ α) (k : κ) (v : α) :
    (d.set k v).rows.length ≤ d.rows.length + 1 := by
  by_cases h : d.contains k = true
  · rw [Dict.set, if_pos h]
    exact (List.length_map _).le.trans (Nat.le_succ _)
  · rw [Dict.rows_set_of_not_contains (by simpa using h), List.length_append]
    exact le_rfl

lemma length_set_of_mem {κ α : Type} [DecidableEq κ] {d : Dict κ α} {k : κ} {v : α}
    (h : d.get? k = some v) (v' : α) : (d.set k v').rows.length = d.rows.length := by
  have hcontains : d.contains k = true :=
    (d.contains_iff k).mpr ⟨(k, v), (Dict.get?_some_iff _ _ _).mp h, rfl⟩
  rw [Dict.set, if_pos hcontains]
  exact List.length_map _

namespace XauM30

/-! ## Moves -/

abbrev Book := Dict String XauPosition

/-- The stop is on the side of the entry where the position loses. -/
def LossSide (entry sl : ℚ) : Side → Prop
  | .long => sl < entry
  | .short => entry < sl

/-- The target is on the side where it gains. -/
def ProfitSide (entry tp : ℚ) : Side → Prop
  | .long => entry < tp
  | .short => tp < entry

/-- The stop and the target of a position around its entry, and its two caps. -/
structure Bracketed (x : XauM30) (p : XauPosition) : Prop where
  stop : LossSide p.entry p.sl p.side
  target : ProfitSide p.entry p.tp p.side
  ratio : |p.tp - p.entry| = x.preset.rr * |p.entry - p.sl|
  risked : p.qty * |p.entry - p.sl| ≤ x.capital * x.riskPct
  bought : p.qty * p.entry ≤ x.capital * x.leverage

/-- One signal and what it does to the book; `atr` is the last ATR where it is an opening. -/
inductive Move (x : XauM30) (atr : ℚ) (book : Book) : Call → Book → Prop
  | close {id : String} (reason : String) (price : ℚ) (executable : Bool) (source : String) :
    Move x atr book (x.closeCall id reason price executable source) (book.erase id)
  | tighten {id : String} {p : XauPosition} (hheld : book.get? id = some p) (hfirst : p.breakeven = false) :
    Move x atr book (x.modifyCall id p.entry) (book.set id { p with sl := p.entry, breakeven := true })
  | opened {p : XauPosition} {t : ℤ} (hroom : book.rows.length < x.preset.maxPositions)
    (hbracket : x.Bracketed p)
    (hspaced : ∀ id q, book.get? id = some q → q.side = p.side → 1 / 2 * atr ≤ |p.entry - q.entry|) :
    Move x atr book (x.openCall p t) (book.set p.positionId p)

/-- A number of moves, with their signals. -/
inductive Moves (x : XauM30) (atr : ℚ) : Book → List Call → Book → Prop
  | nil (book : Book) : Moves x atr book [] book
  | cons {book book' book'' : Book} {c : Call} {cs : List Call} (hmove : Move x atr book c book')
    (hrest : Moves x atr book' cs book'') : Moves x atr book (c :: cs) book''

lemma Moves.single {x : XauM30} {atr : ℚ} {book book' : Book} {c : Call} (h : Move x atr book c book') :
    Moves x atr book [c] book' := .cons h (.nil _)

lemma Moves.append {x : XauM30} {atr : ℚ} {book book' book'' : Book} {cs cs' : List Call}
    (h : Moves x atr book cs book') (h' : Moves x atr book' cs' book'') :
    Moves x atr book (cs ++ cs') book'' := by
  induction h with
  | nil => exact h'
  | cons hmove _ ih => exact .cons hmove (ih h')

/-! ## Sound books -/

/-- `position_id` of a signal. -/
def positionIdOf (c : Call) : Option String :=
  match c.field "position_id" with
  | .str id => some id
  | _ => none

/-- The number of MODIFYs of a position since its OPEN. -/
def breakevens (id : String) (sent : List Call) : ℕ :=
  sent.foldl (fun n c =>
    if positionIdOf c = some id then (if c.type = "OPEN" then 0 else if c.type = "MODIFY" then n + 1 else n)
    else n) 0

/-- The openings with the ATRs they were made with, the latest one first. -/
def record (atr : ℚ) (openings : List (String × ℚ)) (c : Call) : List (String × ℚ) :=
  match positionIdOf c with
  | some id =>
    if c.type = "OPEN" then (id, atr) :: openings.filter fun o => o.1 ≠ id else openings
  | none => openings

/-- Of two held positions of one side, the later one was opened at least half of its ATR away. -/
def Apart (openings : List (String × ℚ)) (book : Book) : Prop :=
  openings.Pairwise fun later earlier => ∀ q p, book.get? later.1 = some q →
    book.get? earlier.1 = some p → q.side = p.side → 1 / 2 * later.2 ≤ |q.entry - p.entry|

/-- What every move keeps. -/
structure Sound (x : XauM30) (book : Book) (openings : List (String × ℚ)) (sent : List Call) : Prop where
  capped : book.rows.length ≤ x.preset.maxPositions
  apart : Apart openings book
  recorded : ∀ id p, book.get? id = some p → id ∈ openings.map Prod.fst
  stops : ∀ id p, book.get? id = some p → p.breakeven = false → LossSide p.entry p.sl p.side
  fresh : ∀ id p, book.get? id = some p → p.breakeven = false → breakevens id sent = 0
  once : ∀ id, breakevens id sent ≤ 1

lemma breakevens_snoc (id : String) (sent : List Call) (c : Call) :
    breakevens id (sent ++ [c]) = if positionIdOf c = some id then
      (if c.type = "OPEN" then 0 else if c.type = "MODIFY" then breakevens id sent + 1 else breakevens id sent)
      else breakevens id sent := by
  rw [breakevens, List.foldl_append]
  rfl

section Moves

variable {x : XauM30} {atr : ℚ} {book : Book} {openings : List (String × ℚ)} {sent : List Call}

/-- A book with fewer positions, after a signal that changes no count. -/
lemma sound_close (h : x.Sound book openings sent) (id reason : String) (price : ℚ) (executable : Bool)
    (source : String) : x.Sound (book.erase id) (record atr openings
      (x.closeCall id reason price executable source))
      (sent ++ [x.closeCall id reason price executable source]) := by
  have hcounts (k : String) :
      breakevens k (sent ++ [x.closeCall id reason price executable source]) = breakevens k sent := by
    rw [breakevens_snoc]
    split <;> rfl
  have hheld {k : String} {p : XauPosition} (hk : Dict.get? (book.erase id) k = some p) :
      book.get? k = some p := (get?_of_erase hk).2
  have hopenings : record atr openings (x.closeCall id reason price executable source) = openings := rfl
  rw [hopenings]
  refine ⟨?_, ?_, fun k p hk => h.recorded k p (hheld hk), fun k p hk => h.stops k p (hheld hk),
    fun k p hk hb => ?_, fun k => ?_⟩
  · exact (List.length_filter_le _ _).trans h.capped
  · exact h.apart.imp fun hpair q p hq hp => hpair q p (hheld hq) (hheld hp)
  · rw [hcounts]
    exact h.fresh k p (hheld hk) hb
  · rw [hcounts]
    exact h.once k

/-- A stop at the entry. -/
lemma sound_tighten (h : x.Sound book openings sent) {id : String} {p : XauPosition}
    (hheld : book.get? id = some p) (hfirst : p.breakeven = false) :
    x.Sound (book.set id { p with sl := p.entry, breakeven := true })
      (record atr openings (x.modifyCall id p.entry)) (sent ++ [x.modifyCall id p.entry]) := by
  -- the positions keep their sides and their entries
  have hsame {k : String} {q : XauPosition}
      (hk : (book.set id { p with sl := p.entry, breakeven := true }).get? k = some q) :
      ∃ q', book.get? k = some q' ∧ q.side = q'.side ∧ q.entry = q'.entry ∧
        (q.breakeven = false → k ≠ id ∧ q = q') := by
    rw [Dict.get?_set] at hk
    split at hk
    · rename_i hid
      cases hk
      exact ⟨p, hid ▸ hheld, rfl, rfl, fun h => absurd h Bool.false_ne_true.symm⟩
    · rename_i hne
      exact ⟨q, hk, rfl, rfl, fun _ => ⟨hne, rfl⟩⟩
  have hcount (k : String) : breakevens k (sent ++ [x.modifyCall id p.entry]) =
      if some id = some k then breakevens k sent + 1 else breakevens k sent := breakevens_snoc _ _ _
  have hopenings : record atr openings (x.modifyCall id p.entry) = openings := rfl
  rw [hopenings]
  refine ⟨?_, ?_, fun k q hk => ?_, fun k q hk hb => ?_, fun k q hk hb => ?_, fun k => ?_⟩
  · rw [length_set_of_mem hheld]
    exact h.capped
  · refine h.apart.imp fun hpair q q₂ hq hq₂ hside => ?_
    obtain ⟨q', hq', hs, he, -⟩ := hsame hq
    obtain ⟨q₂', hq₂', hs₂, he₂, -⟩ := hsame hq₂
    rw [he, he₂]
    exact hpair q' q₂' hq' hq₂' (hs.symm.trans (hside.trans hs₂))
  · obtain ⟨q', hq', -⟩ := hsame hk
    exact h.recorded k q' hq'
  · obtain ⟨q', hq', -, -, hother⟩ := hsame hk
    obtain ⟨-, rfl⟩ := hother hb
    exact h.stops k q hq' hb
  · obtain ⟨q', hq', -, -, hother⟩ := hsame hk
    obtain ⟨hne, rfl⟩ := hother hb
    rw [hcount, if_neg fun hid => hne (Option.some_inj.mp hid).symm]
    exact h.fresh k q hq' hb
  · rw [hcount]
    split
    · rename_i hid
      rw [← Option.some_inj.mp hid, h.fresh id p hheld hfirst]
    · exact h.once k

/-- A position more. -/
lemma sound_opened (h : x.Sound book openings sent) {p : XauPosition} {t : ℤ}
    (hroom : book.rows.length < x.preset.maxPositions) (hbracket : x.Bracketed p)
    (hspaced : ∀ id q, book.get? id = some q → q.side = p.side → 1 / 2 * atr ≤ |p.entry - q.entry|) :
    x.Sound (book.set p.positionId p) (record atr openings (x.openCall p t)) (sent ++ [x.openCall p t]) := by
  have hheld {k : String} {q : XauPosition} (hk : (book.set p.positionId p).get? k = some q) :
      k = p.positionId ∧ q = p ∨ k ≠ p.positionId ∧ book.get? k = some q := by
    rw [Dict.get?_set] at hk
    split at hk
    · rename_i hid
      cases hk
      exact .inl ⟨hid, rfl⟩
    · rename_i hne
      exact .inr ⟨hne, hk⟩
  have hold {o : String × ℚ} (ho : o ∈ openings.filter fun o => o.1 ≠ p.positionId) :
      o.1 ≠ p.positionId := by simpa using (List.mem_filter.mp ho).2
  have hcount (k : String) : breakevens k (sent ++ [x.openCall p t]) =
      if some p.positionId = some k then 0 else breakevens k sent := breakevens_snoc _ _ _
  have hopenings : record atr openings (x.openCall p t) =
      (p.positionId, atr) :: openings.filter fun o => o.1 ≠ p.positionId := rfl
  rw [hopenings]
  refine ⟨(length_set_le _ _ _).trans hroom, List.pairwise_cons.mpr ⟨fun o ho q q₂ hq hq₂ hside => ?_, ?_⟩,
    fun k q hk => ?_, fun k q hk hb => ?_, fun k q hk hb => ?_, fun k => ?_⟩
  · -- the new position and an earlier one
    obtain ⟨-, rfl⟩ := (hheld hq).resolve_right fun hne => hne.1 rfl
    obtain ⟨-, hq₂⟩ := (hheld hq₂).resolve_left fun hid => hold ho hid.1
    exact hspaced o.1 q₂ hq₂ hside.symm
  · refine (h.apart.filter _).imp_of_mem fun ho ho₂ hpair q q₂ hq hq₂ => ?_
    obtain ⟨-, hq⟩ := (hheld hq).resolve_left fun hid => hold ho hid.1
    obtain ⟨-, hq₂⟩ := (hheld hq₂).resolve_left fun hid => hold ho₂ hid.1
    exact hpair q q₂ hq hq₂
  · rcases hheld hk with ⟨rfl, -⟩ | ⟨hne, hk⟩
    · exact List.mem_cons_self
    · obtain ⟨o, ho, rfl⟩ := List.mem_map.mp (h.recorded k q hk)
      refine List.mem_cons_of_mem _ (List.mem_map.mpr ⟨o, List.mem_filter.mpr ⟨ho, ?_⟩, rfl⟩)
      simpa using hne
  · rcases hheld hk with ⟨-, rfl⟩ | ⟨-, hk⟩
    · exact hbracket.stop
    · exact h.stops k q hk hb
  · rw [hcount]
    rcases hheld hk with ⟨rfl, -⟩ | ⟨-, hk⟩
    · rw [if_pos rfl]
    · split
      · rfl
      · exact h.fresh k q hk hb
  · rw [hcount]
    split
    · exact Nat.zero_le 1
    · exact h.once k

/-- Every move keeps the book sound. -/
lemma sound_move (h : x.Sound book openings sent) {c : Call} {book' : Book}
    (hmove : Move x atr book c book') : x.Sound book' (record atr openings c) (sent ++ [c]) := by
  cases hmove with
  | close reason price executable source => exact sound_close h _ reason price executable source
  | tighten hheld hfirst => exact sound_tighten h hheld hfirst
  | opened hroom hbracket hspaced => exact sound_opened h hroom hbracket hspaced

/-- And so does a number of them. -/
lemma sound_moves (h : x.Sound book openings sent) {cs : List Call} {book' : Book}
    (hmoves : Moves x atr book cs book') : x.Sound book' (cs.foldl (record atr) openings) (sent ++ cs) := by
  induction hmoves generalizing openings sent with
  | nil =>
    rw [List.append_nil]
    exact h
  | cons hmove _ ih =>
    have hnext := ih (sound_move h hmove)
    rwa [List.append_assoc] at hnext

/-- The OPENs of moves are bracketed. -/
lemma bracketed_of_moves {cs : List Call} {book' : Book} (hmoves : Moves x atr book cs book') :
    ∀ c ∈ cs, c.type = "OPEN" → ∃ p t, c = x.openCall p t ∧ x.Bracketed p := by
  induction hmoves with
  | nil => exact fun c hc => absurd hc List.not_mem_nil
  | cons hmove _ ih =>
    intro c hc htype
    rcases List.mem_cons.mp hc with rfl | hc
    · cases hmove with
      | close reason price executable source =>
        have hother : ("CLOSE" : String) = "OPEN" := htype
        exact absurd hother (by decide)
      | tighten hheld hfirst =>
        have hother : ("MODIFY" : String) = "OPEN" := htype
        exact absurd hother (by decide)
      | opened hroom hbracket hspaced => exact ⟨_, _, rfl, hbracket⟩
    · exact ih c hc htype

end Moves

/-! ## The bracket of an opening -/

/-- `_atr(series)[-1]`. -/
def lastAtr (m30 : List ExactCandle) : ℚ := val (atrValues m30) (m30.length - 1)

lemma least_le {values : List ℚ} {v : ℚ} (h : v ∈ values) : least values ≤ v := by
  have hfold : ∀ (rest : List ℚ) (w : ℚ), rest.foldl min w ≤ w ∧ ∀ u ∈ rest, rest.foldl min w ≤ u := by
    intro rest
    induction rest with
    | nil => exact fun w => ⟨le_rfl, fun u hu => absurd hu List.not_mem_nil⟩
    | cons u rest ih =>
      intro w
      obtain ⟨hw, hrest⟩ := ih (min w u)
      refine ⟨hw.trans (min_le_left _ _), fun u' hu' => ?_⟩
      rcases List.mem_cons.mp hu' with rfl | hu'
      · exact hw.trans (min_le_right _ _)
      · exact hrest u' hu'
  cases values with
  | nil => exact absurd h List.not_mem_nil
  | cons w rest =>
    rcases List.mem_cons.mp h with rfl | h
    · exact (hfold rest v).1
    · exact (hfold rest w).2 v h

lemma le_greatest {values : List ℚ} {v : ℚ} (h : v ∈ values) : v ≤ greatest values := by
  have hfold : ∀ (rest : List ℚ) (w : ℚ), w ≤ rest.foldl max w ∧ ∀ u ∈ rest, u ≤ rest.foldl max w := by
    intro rest
    induction rest with
    | nil => exact fun w => ⟨le_rfl, fun u hu => absurd hu List.not_mem_nil⟩
    | cons u rest ih =>
      intro w
      obtain ⟨hw, hrest⟩ := ih (max w u)
      refine ⟨(le_max_left _ _).trans hw, fun u' hu' => ?_⟩
      rcases List.mem_cons.mp hu' with rfl | hu'
      · exact (le_max_right _ _).trans hw
      · exact hrest u' hu'
  cases values with
  | nil => exact absurd h List.not_mem_nil
  | cons w rest =>
    rcases List.mem_cons.mp h with rfl | h
    · exact (hfold rest v).1
    · exact (hfold rest w).2 v h

lemma last_mem_slice {values : List ℚ} {n a : ℕ} (hn : values.length = n) (ha : a < n) :
    val values (n - 1) ∈ slice values a n := by
  have hlast : n - 1 < values.length := by omega
  rw [val, List.getD_eq_getElem _ _ hlast, slice, List.take_of_length_le hn.le]
  refine List.mem_iff_getElem.mpr ⟨n - 1 - a, ?_, ?_⟩
  · rw [List.length_drop]
    omega
  · rw [List.getElem_drop]
    congr 1
    omega

/-- What holds of both values holds of the one that is taken. -/
lemma of_ite {P : ℚ → Prop} {c : Prop} [Decidable c] {a b : ℚ} (ha : P a) (hb : P b) :
    P (if c then a else b) := by
  split
  · exact ha
  · exact hb

section Bracket

variable {x : XauM30}

/-- The stop of `_stop_price` is on the loss side. -/
lemma lossSide_stopPrice {m30 : List ExactCandle} (h : ∀ c ∈ m30, c.WellFormed) (hne : 0 < m30.length)
    {atr : ℚ} (hatr : 0 < atr) (side : Side) :
    LossSide (val (closes m30) (m30.length - 1))
      (x.stopPrice side (val (closes m30) (m30.length - 1)) m30 atr) side := by
  have hlast : m30.length - 1 < m30.length := by omega
  have hwf := h m30[m30.length - 1] (List.getElem_mem hlast)
  have hclose := val_closes hlast
  have hlow : least (slice (lows m30) (m30.length - 11) m30.length) ≤ val (closes m30) (m30.length - 1) := by
    have hval : val (lows m30) (m30.length - 1) = m30[m30.length - 1].low :=
      (List.getD_eq_getElem _ _ (by rwa [length_lows])).trans (List.getElem_map _)
    rw [hclose]
    refine (least_le (last_mem_slice (length_lows m30) (by omega))).trans ?_
    rw [hval]
    exact hwf.low_le_close
  have hhigh : val (closes m30) (m30.length - 1) ≤
      greatest (slice (highs m30) (m30.length - 11) m30.length) := by
    have hval : val (highs m30) (m30.length - 1) = m30[m30.length - 1].high :=
      (List.getD_eq_getElem _ _ (by rwa [length_highs])).trans (List.getElem_map _)
    rw [hclose]
    refine le_trans ?_ (le_greatest (last_mem_slice (length_highs m30) (by omega)))
    rw [hval]
    exact hwf.close_le_high
  unfold stopPrice
  dsimp only
  split
  · -- the multiple of the ATR is positive
    obtain ⟨multiplier, hmultiplier, hpos⟩ : ∃ multiplier : ℚ, (if x.preset.number = 10 then 6 / 5
        else if x.preset.number = 11 then 8 / 5 else 27 / 20) = multiplier ∧ 0 < multiplier := by
      refine ⟨_, rfl, ?_⟩
      split
      · norm_num
      · split <;> norm_num
    rw [hmultiplier]
    have hdistance : 0 < multiplier * atr := mul_pos hpos hatr
    cases side with
    | long => exact sub_lt_self _ hdistance
    | short => exact lt_add_of_pos_right _ hdistance
  · have hbuffer : 0 < 3 / 2 * atr := by linarith
    cases side with
    | long =>
      have hmin := min_le_left (least (slice (lows m30) (m30.length - 11) m30.length))
        (val (ema (closes m30) 50) (m30.length - 1))
      exact of_ite (P := fun sl => sl < val (closes m30) (m30.length - 1)) (by linarith) (by linarith)
    | short =>
      have hmax := le_max_left (greatest (slice (highs m30) (m30.length - 11) m30.length))
        (val (ema (closes m30) 50) (m30.length - 1))
      exact of_ite (P := fun sl => val (closes m30) (m30.length - 1) < sl) (by linarith) (by linarith)

/-- Rounding down to thousandths makes no quantity larger. -/
lemma floor_thousandths_le (q : ℚ) : (⌊q * 1000⌋ : ℚ) / 1000 ≤ q := by
  rw [div_le_iff₀ (by norm_num)]
  exact Int.floor_le _

lemma rr_pos (x : XauM30) : 0 < x.preset.rr := by
  have hpresets : ∀ preset ∈ xauPresets, 0 < preset.rr := by
    simp [xauPresets]
  exact hpresets x.preset x.known

/-- The position of an opening is bracketed. -/
lemma bracketed_newPosition (hfunds : 0 < x.capital * x.leverage) {side : Side} {entry sl qty : ℚ}
    (hstop : LossSide entry sl side) (hqty : x.positionQty entry |entry - sl| = .ok qty)
    (hlarge : ¬ qty < 1 / 1000) (id : String) : x.Bracketed (x.newPosition id side entry qty sl) := by
  have hrisk : 0 < |entry - sl| := by
    cases side with
    | long => exact abs_pos.mpr (sub_pos.mpr hstop).ne'
    | short => exact abs_pos.mpr (sub_neg.mpr hstop).ne
  have hreward : 0 < x.preset.rr * |entry - sl| := mul_pos (rr_pos x) hrisk
  have hentry : entry ≠ 0 := by
    rintro rfl
    unfold positionQty at hqty
    rw [pyDiv_of_ne hrisk.ne'] at hqty
    cases hqty
  have hmin : min ((⌊x.capital * x.riskPct / |entry - sl| * 1000⌋ : ℚ) / 1000)
      ((⌊x.capital * x.leverage / entry * 1000⌋ : ℚ) / 1000) = qty := by
    unfold positionQty at hqty
    rw [pyDiv_of_ne hrisk.ne', pyDiv_of_ne hentry] at hqty
    exact Except.ok.inj hqty
  have hrisked : qty ≤ x.capital * x.riskPct / |entry - sl| := by
    rw [← hmin]
    exact (min_le_left _ _).trans (floor_thousandths_le _)
  have hbought : qty ≤ x.capital * x.leverage / entry := by
    rw [← hmin]
    exact (min_le_right _ _).trans (floor_thousandths_le _)
  -- a quantity that is large enough needs a positive price
  have hpositive : 0 < entry := by
    have hquotient : 0 < x.capital * x.leverage / entry := by linarith [not_lt.mp hlarge]
    exact (div_pos_iff_of_pos_left hfunds).mp hquotient
  refine ⟨hstop, ?_, ?_, ?_, ?_⟩
  · cases side with
    | long => exact lt_add_of_pos_right _ hreward
    | short => exact sub_lt_self _ hreward
  · cases side with
    | long =>
      show |entry + x.preset.rr * |entry - sl| - entry| = _
      rw [add_sub_cancel_left, abs_of_pos hreward]
      rfl
    | short =>
      show |entry - x.preset.rr * |entry - sl| - entry| = _
      rw [sub_sub_cancel_left, abs_neg, abs_of_pos hreward]
      rfl
  · exact (le_div_iff₀ hrisk).mp hrisked
  · exact (le_div_iff₀ hpositive).mp hbought

end Bracket

end XauM30

end PaperTrade.Runner
