import PatternScan.Table.Path

/-!
# Walks

A path can be cut in two wherever the word that it reads is cut (`Path.cut`), so the last character
of a word is read by a state that the rest of the word leads to (`path_append_singleton_iff`).

A walk is a path with the number of its steps. What follows the first visit of a place has no more
steps than the whole, which carries inductions over loops that read nothing.

The states that are reached are state zero and the successors of such states
(`Reachable.induction`), whatever the characters on the way.
-/

namespace PatternScan

theorem State.mem_successors {s : State} {n : Next} :
    n ∈ s.successors ↔ n = s.first ∨ n = s.second := by
  unfold State.successors
  split
  · next h => simp only [List.mem_singleton, h, or_self]
  · simp only [List.mem_cons, List.not_mem_nil, or_false]

theorem StateKind.consumes_eq_false_iff {kind : StateKind} :
    kind.consumes = false ↔ kind = .branch := by
  cases kind <;> simp [StateKind.consumes]

theorem StateKind.exists_accepts {kind : StateKind} (h : kind.consumes = true) :
    ∃ c, kind.accepts c = true := by
  rcases kind with c | _ | _
  · exact ⟨c, by simp [StateKind.accepts]⟩
  · exact ⟨'a', rfl⟩
  · simp [StateKind.consumes] at h

namespace Table

variable {t : Table}

namespace Path

theorem snoc {n : Next} {u : List Char} {id : Nat} {s : State} {c : Char}
    (h : Path t n u (.state id)) (hs : t.get? id = some s) (hc : s.kind.accepts c = true) :
    Path t n (u ++ [c]) s.first :=
  h.trans (.read hs hc (.here _))

theorem passTo {n : Next} {u : List Char} {id : Nat} {s : State} {m : Next}
    (h : Path t n u (.state id)) (hs : t.get? id = some s) (hb : s.kind = .branch)
    (hm : m ∈ s.successors) : Path t n u m := by
  simpa only [List.append_nil] using h.trans (.pass hs hb hm (.here m))

theorem cut {n m : Next} {w : List Char} (h : Path t n w m) :
    ∀ {u v : List Char}, w = u ++ v → ∃ k, Path t n u k ∧ Path t k v m := by
  induction h with
  | here n =>
    intro u v huv
    obtain ⟨rfl, rfl⟩ := List.nil_eq_append_iff.mp huv
    exact ⟨n, .here n, .here n⟩
  | pass hs hb hn _ ih =>
    intro u v huv
    obtain ⟨k, hu, hv⟩ := ih huv
    exact ⟨k, .pass hs hb hn hu, hv⟩
  | @read id s c m w hs hc hw ih =>
    intro u v huv
    rcases u with _ | ⟨d, u⟩
    · rw [List.nil_append] at huv
      exact ⟨_, .here _, huv ▸ .read hs hc hw⟩
    · rw [List.cons_append, List.cons.injEq] at huv
      obtain ⟨rfl, huv⟩ := huv
      obtain ⟨k, hu, hv⟩ := ih huv
      exact ⟨k, .read hs hc hu, hv⟩

theorem read_inv {n m : Next} {w : List Char} (h : Path t n w m) :
    ∀ {c : Char} {v : List Char}, w = c :: v → ∃ id s, Path t n [] (.state id) ∧
      t.get? id = some s ∧ s.kind.accepts c = true ∧ Path t s.first v m := by
  induction h with
  | here => exact fun hw => nomatch hw
  | pass hs hb hn _ ih =>
    intro c v hw
    obtain ⟨id, s, hid, hread⟩ := ih hw
    exact ⟨id, s, .pass hs hb hn hid, hread⟩
  | @read id s c m w hs hc hw _ =>
    intro d v hwd
    rw [List.cons.injEq] at hwd
    obtain ⟨rfl, rfl⟩ := hwd
    exact ⟨id, s, .here _, hs, hc, hw⟩

/-- No path leaves the table. -/
theorem within {n m : Next} {w : List Char} (h : Path t n w m) (hn : n.Within t.size) :
    m.Within t.size := by
  induction h with
  | here => exact hn
  | @pass id s n m w hs _ hmem _ ih =>
    have hs := t.closed s (Array.mem_of_getElem? hs)
    rcases State.mem_successors.mp hmem with rfl | rfl
    · exact ih hs.1
    · exact ih hs.2
  | @read id s c m w hs _ _ ih => exact ih (t.closed s (Array.mem_of_getElem? hs)).1

/-- What is closed under branches holds wherever a path leads that reads nothing. -/
theorem closed_of_nil {P : Next → Prop}
    (hP : ∀ id s, P (.state id) → t.get? id = some s → s.kind = .branch →
      ∀ n ∈ s.successors, P n) :
    ∀ {n m : Next} {w : List Char}, Path t n w m → w = [] → P n → P m := by
  intro n m w h
  induction h with
  | here => exact fun _ hn => hn
  | pass hs hb hn _ ih => exact fun hw h => ih hw (hP _ _ h hs hb _ hn)
  | read => exact fun hw => nomatch hw

end Path

/-- The last character of a word is read by a state that the rest of the word leads to. -/
theorem path_append_singleton_iff {n m : Next} {u : List Char} {c : Char} :
    Path t n (u ++ [c]) m ↔ ∃ id s, Path t n u (.state id) ∧ t.get? id = some s ∧
      s.kind.accepts c = true ∧ Path t s.first [] m := by
  constructor
  · intro h
    obtain ⟨k, hu, hc⟩ := h.cut rfl
    obtain ⟨id, s, hid, hs, haccepts, hm⟩ := hc.read_inv rfl
    exact ⟨id, s, by simpa only [List.append_nil] using hu.trans hid, hs, haccepts, hm⟩
  · rintro ⟨id, s, hu, hs, hc, hm⟩
    simpa only [List.append_nil] using (hu.snoc hs hc).trans hm

/-- A path of so many steps. -/
inductive Walk (t : Table) : Nat → Next → List Char → Next → Prop
  | here (n : Next) : Walk t 0 n [] n
  | pass {k id : Nat} {s : State} {n m : Next} {w : List Char} :
      t.get? id = some s → s.kind = .branch → n ∈ s.successors → Walk t k n w m →
      Walk t (k + 1) (.state id) w m
  | read {k id : Nat} {s : State} {c : Char} {m : Next} {w : List Char} :
      t.get? id = some s → s.kind.accepts c = true → Walk t k s.first w m →
      Walk t (k + 1) (.state id) (c :: w) m

theorem path_iff_exists_walk {n m : Next} {w : List Char} :
    Path t n w m ↔ ∃ k, Walk t k n w m := by
  constructor
  · intro h
    induction h with
    | here n => exact ⟨0, .here n⟩
    | pass hs hb hn _ ih =>
      obtain ⟨k, hk⟩ := ih
      exact ⟨k + 1, .pass hs hb hn hk⟩
    | read hs hc _ ih =>
      obtain ⟨k, hk⟩ := ih
      exact ⟨k + 1, .read hs hc hk⟩
  · rintro ⟨k, h⟩
    induction h with
    | here n => exact .here n
    | pass hs hb hn _ ih => exact .pass hs hb hn ih
    | read hs hc _ ih => exact .read hs hc ih

namespace Walk

variable {k id : Nat} {s : State} {w : List Char}

theorem of_branch (h : Walk t k (.state id) w .final) (hs : t.get? id = some s)
    (hb : s.kind = .branch) : ∃ j n, k = j + 1 ∧ n ∈ s.successors ∧ Walk t j n w .final := by
  cases h with
  | pass hs' _ hn hw =>
    obtain rfl := Option.some.inj (hs.symm.trans hs')
    exact ⟨_, _, rfl, hn, hw⟩
  | read hs' hc _ =>
    obtain rfl := Option.some.inj (hs.symm.trans hs')
    rw [hb] at hc
    exact absurd hc Bool.false_ne_true

theorem of_consuming (h : Walk t k (.state id) w .final) (hs : t.get? id = some s)
    (hk : s.kind.consumes = true) : ∃ j c v, k = j + 1 ∧ w = c :: v ∧
      s.kind.accepts c = true ∧ Walk t j s.first v .final := by
  cases h with
  | pass hs' hb _ _ =>
    obtain rfl := Option.some.inj (hs.symm.trans hs')
    rw [hb] at hk
    exact absurd hk Bool.false_ne_true
  | read hs' hc hw =>
    obtain rfl := Option.some.inj (hs.symm.trans hs')
    exact ⟨_, _, _, rfl, rfl, hc, hw⟩

end Walk

section Reachable

variable {n m l : Next} {id : Nat} {s : State}

theorem Leads.refl (n : Next) : t.Leads n n :=
  ⟨[], .here n⟩

theorem Leads.trans (h : t.Leads n m) (h' : t.Leads m l) : t.Leads n l := by
  obtain ⟨u, hu⟩ := h
  obtain ⟨v, hv⟩ := h'
  exact ⟨u ++ v, hu.trans hv⟩

/-- A state that reads a character reads some, so that a path leads to its successor too. -/
theorem leads_successor (hs : t.get? id = some s) (hn : n ∈ s.successors) :
    t.Leads (.state id) n := by
  by_cases hb : s.kind = .branch
  · exact ⟨[], .pass hs hb hn (.here n)⟩
  · have hconsumes : s.kind.consumes = true := by
      rw [← Bool.not_eq_false]
      exact mt StateKind.consumes_eq_false_iff.mp hb
    obtain ⟨c, hc⟩ := StateKind.exists_accepts hconsumes
    have huniform := t.uniform s (Array.mem_of_getElem? hs) hconsumes
    rw [State.mem_successors, ← huniform, or_self] at hn
    exact ⟨[c], hn ▸ .read hs hc (.here _)⟩

theorem leads_first (hs : t.get? id = some s) : t.Leads (.state id) s.first :=
  leads_successor hs (State.mem_successors.mpr (.inl rfl))

theorem leads_second (hs : t.get? id = some s) : t.Leads (.state id) s.second :=
  leads_successor hs (State.mem_successors.mpr (.inr rfl))

theorem Reachable.successor (h : t.Reachable (.state id)) (hs : t.get? id = some s)
    (hn : n ∈ s.successors) : t.Reachable n :=
  Leads.trans h (leads_successor hs hn)

theorem Reachable.lt_size (h : t.Reachable (.state id)) : id < t.size := by
  obtain ⟨w, hw⟩ := h
  exact hw.within (Nat.pos_of_ne_zero t.nonempty)

/-- What holds of state zero and is kept by successors holds of all states that are reached. -/
theorem Reachable.induction {P : Nat → Prop} (zero : P 0)
    (successor : ∀ i s j, P i → t.get? i = some s → .state j ∈ s.successors → P j)
    (h : t.Reachable (.state id)) : P id := by
  have hpath : ∀ {n m : Next} {w : List Char}, Path t n w m → (∀ i, n = .state i → P i) →
      ∀ i, m = .state i → P i := by
    intro n m w hw
    induction hw with
    | here => exact fun hn => hn
    | @pass id s n m w hs _ hn _ ih =>
      exact fun hid => ih fun i hi => successor id s i (hid id rfl) hs (hi ▸ hn)
    | @read id s c m w hs _ _ ih =>
      refine fun hid => ih fun i hi => successor id s i (hid id rfl) hs ?_
      exact State.mem_successors.mpr (.inl hi.symm)
  obtain ⟨w, hw⟩ := h
  refine hpath hw (fun i hi => ?_) id rfl
  exact Next.state.inj hi ▸ zero

end Reachable

end Table

end PatternScan
