import Mathlib
import Reckoner.Proofs.Conservation
import Reckoner.Proofs.Verdict

/-!
# The order in which tokens are emitted

A number is emitted when it is read. An operator waits until a later position releases it: the
parenthesis that closes its block, or an operator of its block that it is applied before. What no
position releases is emitted at the end. This holds of well-formed tokens and of any others that
are accepted.

* `Releases`, `emissionTime`, `EmittedBefore`: the order, told from the tokens alone.
* `releases_iff`: in a balanced list, a release is told by what stands between the positions.
* `Nested`: consecutive positions that wait have balanced tokens between them.
* `Progress.step`: the invariant of the conversion after each token.
* `convert_emission_order`: a conversion emits its tokens in that order.
-/

namespace Reckoner

/-- A token is an operator that is applied before the other token, also an operator. -/
def Token.appliesBefore : Token → Token → Bool
  | op o, op p => o.binding.appliesBefore p.binding
  | _, _ => false

/-- The position `j` releases an operator at position `i`: it closes the block of `i`, or it holds
an operator of that block that the one at `i` is applied before. -/
def Releases (ts : List Token) (i j : Nat) : Prop :=
  i < j ∧ ((∃ a < i, Innermost ts a j i) ∨
    SameBlock ts i j ∧ ∃ t ∈ ts[i]?, ∃ u ∈ ts[j]?, t.appliesBefore u = true)

instance (ts : List Token) (i j : Nat) : Decidable (Releases ts i j) :=
  inferInstanceAs (Decidable (_ ∧ (_ ∨ _)))

/-- The position at which a token is emitted: that of a number itself, the first that releases an
operator, or the end. -/
def emissionTime (ts : List Token) (i : Nat) : Nat :=
  match ts[i]? with
  | some (.op _) => ((List.range ts.length).find? fun j => Releases ts i j).getD ts.length
  | _ => i

/-- Tokens are emitted in the order of their times, and of one time the later token first. -/
def EmittedBefore (ts : List Token) (i j : Nat) : Prop :=
  emissionTime ts i < emissionTime ts j ∨ emissionTime ts i = emissionTime ts j ∧ j < i

instance (ts : List Token) (i j : Nat) : Decidable (EmittedBefore ts i j) :=
  inferInstanceAs (Decidable (_ ∨ _))

/-- The positions of the tokens that are no parentheses. -/
def nonParenPositions (ts : List Token) : List Nat :=
  (List.range ts.length).filter fun i => ts[i]?.any (!·.isParen)

/-- `out` holds the tokens that are no parentheses, each once and in the order of emission. -/
def InEmissionOrder (ts out : List Token) : Prop :=
  ∃ order : List Nat, order.Perm (nonParenPositions ts) ∧ order.Pairwise (EmittedBefore ts) ∧
    order.map (ts[·]?) = out.map some

section Times

variable {ts : List Token} {i j k : Nat} {t u : Token} {o p : Operator} {x : Float}

theorem releases_iff (hts : Balanced ts) (hi : ts[i]? = some (.op o)) (hj : ts[j]? = some u) :
    Releases ts i j ↔ i < j ∧ Balanced (stretch ts (i + 1) j) ∧
      (u = .closeParen ∨ (Token.op o).appliesBefore u = true) := by
  unfold Releases
  refine and_congr_right fun hij => ?_
  rw [exists_innermost_iff hts hij hi rfl, hi, hj]
  simp only [Option.some.injEq, Option.mem_def, exists_eq_left']
  constructor
  · rintro (⟨rfl, hb⟩ | ⟨hs, ha⟩)
    · exact ⟨hb, .inl rfl⟩
    · have hu : u.isParen = false := by
        cases u <;> first | rfl | cases ha
      exact ⟨(sameBlock_iff hts hij hi rfl hj hu).mp hs, .inr ha⟩
  · rintro ⟨hb, rfl | ha⟩
    · exact .inl ⟨rfl, hb⟩
    · have hu : u.isParen = false := by
        cases u <;> first | rfl | cases ha
      exact .inr ⟨(sameBlock_iff hts hij hi rfl hj hu).mpr hb, ha⟩

theorem emissionTime_number (hi : ts[i]? = some (.number x)) : emissionTime ts i = i := by
  simp [emissionTime, hi]

/-- The first release is the time of an operator. -/
theorem emissionTime_eq_of_releases (hi : ts[i]? = some (.op o)) (hk : k < ts.length)
    (h : Releases ts i k) (hfirst : ∀ j < k, ¬ Releases ts i j) : emissionTime ts i = k := by
  have : (List.range ts.length).find? (fun j => Releases ts i j) = some k := by
    simpa [List.find?_range_eq_some] using ⟨h, hk, hfirst⟩
  simp only [emissionTime, hi, this, Option.getD_some]

theorem emissionTime_eq_length (hi : ts[i]? = some (.op o))
    (h : ∀ j < ts.length, ¬ Releases ts i j) : emissionTime ts i = ts.length := by
  have : (List.range ts.length).find? (fun j => Releases ts i j) = none := by
    simpa using h
  simp only [emissionTime, hi, this, Option.getD_none]

/-- Tokens of one time that come latest first stay sorted behind tokens of earlier times. -/
theorem pairwise_emittedBefore_append {order more : List Nat}
    (hs : order.Pairwise (EmittedBefore ts)) (hlt : ∀ i ∈ order, emissionTime ts i < k)
    (hd : more.Pairwise (· > ·)) (heq : ∀ i ∈ more, emissionTime ts i = k) :
    (order ++ more).Pairwise (EmittedBefore ts) := by
  refine List.pairwise_append.mpr ⟨hs, ?_, fun i hi j hj => .inl ?_⟩
  · refine hd.imp_of_mem fun hi hj hij => .inr ⟨?_, hij⟩
    rw [heq _ hi, heq _ hj]
  · rw [heq j hj]
    exact hlt i hi

end Times

/-! ## Positions that wait -/

/-- Between consecutive positions that wait, the last of them first, and from there to `k`, the
tokens are balanced. -/
def Nested (ts : List Token) : Nat → List Nat → Prop
  | k, [] => Balanced (stretch ts 0 k)
  | k, i :: held => i < k ∧ Balanced (stretch ts (i + 1) k) ∧ Nested ts i held

namespace Nested

variable {ts : List Token} {held popped : List Nat} {a i k k' : Nat} {t : Token}

theorem extend (h : Nested ts k held) (hk : k ≤ k') (hb : Balanced (stretch ts k k')) :
    Nested ts k' held := by
  cases held with
  | nil =>
    have := Balanced.append h hb
    rwa [stretch_append (Nat.zero_le k) hk] at this
  | cons i held =>
    obtain ⟨hi, hbi, hn⟩ := h
    have := hbi.append hb
    rw [stretch_append hi hk] at this
    exact ⟨Nat.lt_of_lt_of_le hi hk, this, hn⟩

theorem lt_of_mem (h : Nested ts k held) (hi : i ∈ held) : i < k := by
  induction held generalizing k with
  | nil => cases hi
  | cons j held ih =>
    obtain ⟨hj, -, hn⟩ := h
    rcases List.mem_cons.mp hi with rfl | hi
    · exact hj
    · exact Nat.lt_trans (ih hn hi) hj

/-- A position that waits is left out, if it holds no parenthesis. -/
theorem tail (h : Nested ts k (i :: held)) (hi : ts[i]? = some t) (ht : t.isParen = false) :
    Nested ts k held := by
  obtain ⟨hik, hb, hn⟩ := h
  refine hn.extend (Nat.le_of_lt hik) ?_
  rw [stretch_cons hik hi]
  exact (Balanced.single ht).append hb

/-- So is a parenthesis that is closed. -/
theorem close (h : Nested ts k (a :: held)) (ha : ts[a]? = some .openParen)
    (hk : ts[k]? = some .closeParen) : Nested ts (k + 1) held := by
  obtain ⟨hak, hb, hn⟩ := h
  refine hn.extend (by omega) ?_
  rw [stretch_cons (by omega) ha, stretch_succ hak hk]
  exact hb.wrap

/-- Operators on top can all be left out. Each of them is in the block of what comes next. -/
theorem drop (h : Nested ts k (popped ++ held)) (hp : ∀ i ∈ popped, ∃ o, ts[i]? = some (.op o)) :
    Nested ts k held ∧ popped.Pairwise (· > ·) ∧
      ∀ i ∈ popped, Balanced (stretch ts (i + 1) k) := by
  induction popped generalizing k with
  | nil => exact ⟨h, .nil, by simp⟩
  | cons i popped ih =>
    obtain ⟨o, hi⟩ := hp i List.mem_cons_self
    have hp' := fun j hj => hp j (List.mem_cons_of_mem _ hj)
    obtain ⟨hn, -, hb⟩ := ih (h.tail hi rfl) hp'
    refine ⟨hn, List.pairwise_cons.mpr ⟨fun j hj => ?_, (ih h.2.2 hp').2.1⟩, ?_⟩
    · exact h.2.2.lt_of_mem (List.mem_append_left _ hj)
    · rintro j (_ | ⟨_, hj⟩)
      · exact h.2.1
      · exact hb j hj

/-- Below an open parenthesis, positions that wait are in other blocks. -/
theorem not_balanced (h : Nested ts k (a :: held)) (ha : ts[a]? = some .openParen)
    (hi : i ∈ held) : ¬ Balanced (stretch ts (i + 1) k) := by
  intro hb
  have hia := h.2.2.lt_of_mem hi
  have hcut := stretch_cut (i := i + 1) hia h.1 ha
  have := Balanced.depth_suffix_nonpos (hcut ▸ hb)
  rw [depth_cons, Token.weight_openParen, h.2.1.closed] at this
  omega

end Nested

/-! ## The invariant of the conversion -/

/-- The token that waits. -/
def Pending.token : Pending → Token
  | operator o => .op o
  | paren => .openParen

@[simp] theorem Pending.token_operator (o : Operator) : (operator o).token = .op o := rfl

@[simp] theorem Pending.token_paren : paren.token = .openParen := rfl

/-- After `k` tokens, the positions `order` have been emitted and the positions `held` wait, the
last of them first. -/
structure Progress (ts : List Token) (k : Nat) (order held : List Nat) : Prop where
  /-- No token is lost and none is counted twice. -/
  mem_iff : ∀ i, (i ∈ order ∨ i ∈ held ∧ ts[i]? ≠ some .openParen) ↔
    i < k ∧ ∃ t, ts[i]? = some t ∧ t.isParen = false
  sorted : order.Pairwise (EmittedBefore ts)
  early : ∀ i ∈ order, emissionTime ts i < k
  nested : Nested ts k held
  /-- What waits has not been released. -/
  unreleased : ∀ i ∈ held, ∀ o, ts[i]? = some (.op o) → ∀ j < k, ¬ Releases ts i j

section Steps

open Postfix

variable {ts : List Token} {k : Nat} {order held popped stay : List Nat} {waiting rest : List Pending}
  {t : Token} {out : List Token} {o : Operator} {done : List Operator}

/-- An incoming operator leaves the operators below the first that remains unreleased as well: in
one block, levels rise to the top. -/
theorem not_releases_of_remain (hts : Balanced ts) (h : Nested ts k held)
    (hu : ∀ i ∈ held, ∀ d, ts[i]? = some (.op d) → ∀ j < k, ¬ Releases ts i j)
    (hw : held.map (ts[·]?) = waiting.map (some ·.token)) (hk : ts[k]? = some (.op o))
    (remain : ∀ p ∈ waiting.head?, p.yieldsTo o = false) {i : Nat} (hi : i ∈ held)
    {d : Operator} (hd : ts[i]? = some (.op d)) : ¬ Releases ts i k := by
  intro hr
  obtain ⟨hik, hb, hc | ha⟩ := (releases_iff hts hd hk).mp hr
  · cases hc
  obtain _ | ⟨top, held⟩ := held
  · cases hi
  obtain _ | ⟨p, waiting⟩ := waiting
  · cases hw
  obtain ⟨htop, -⟩ := List.cons.inj hw
  have hp := remain p rfl
  cases p with
  | paren =>
    rcases List.mem_cons.mp hi with rfl | hi
    · cases hd.symm.trans htop
    · exact h.not_balanced htop hi hb
  | operator e =>
    rcases List.mem_cons.mp hi with rfl | hi
    · cases hd.symm.trans htop
      exact absurd ha (Bool.eq_false_iff.mp hp)
    · have hit := h.2.2.lt_of_mem hi
      have hb' := hb
      rw [stretch_cut (i := i + 1) hit h.1 htop] at hb'
      have hbt := hb'.of_append_left ((Balanced.single rfl).append h.2.1)
      refine hu i (List.mem_cons_of_mem _ hi) d hd top h.1 ?_
      refine (releases_iff hts hd htop).mpr ⟨hit, hbt, .inr ?_⟩
      have hlow := mt Operator.appliesBefore_iff.mpr (Bool.eq_false_iff.mp hp)
      have hhigh := Operator.appliesBefore_iff.mp ha
      exact Operator.appliesBefore_iff.mpr (by omega)

namespace Progress

variable {order' held' : List Nat}

/-- A step moves no position but that of the token read. -/
theorem mem_iff_succ (h : Progress ts k order held) (hk : ts[k]? = some t)
    (hself : (k ∈ order' ∨ k ∈ held' ∧ ts[k]? ≠ some .openParen) ↔ t.isParen = false)
    (hother : ∀ i ≠ k, (i ∈ order' ∨ i ∈ held' ∧ ts[i]? ≠ some .openParen) ↔
      i ∈ order ∨ i ∈ held ∧ ts[i]? ≠ some .openParen) (i : Nat) :
    (i ∈ order' ∨ i ∈ held' ∧ ts[i]? ≠ some .openParen) ↔
      i < k + 1 ∧ ∃ t, ts[i]? = some t ∧ t.isParen = false := by
  by_cases hik : i = k
  · subst hik
    rw [hself, hk]
    simp
  · have hlt : i < k + 1 ↔ i < k := by omega
    rw [hother i hik, h.mem_iff i, hlt]

theorem unreleased_succ (h : Progress ts k order held) (hsub : ∀ i ∈ held', i = k ∨ i ∈ held)
    (hnow : ∀ i ∈ held', i ∈ held → ∀ o, ts[i]? = some (.op o) → ¬ Releases ts i k) :
    ∀ i ∈ held', ∀ o, ts[i]? = some (.op o) → ∀ j < k + 1, ¬ Releases ts i j := by
  intro i hi o ho j hj hr
  rcases hsub i hi with rfl | hh
  · have := hr.1
    omega
  · rcases Nat.lt_succ_iff_lt_or_eq.mp hj with hj | rfl
    · exact h.unreleased i hh o ho j hj hr
    · exact hnow i hi hh o ho hr

theorem not_mem_order (h : Progress ts k order held) : k ∉ order := fun hk =>
  Nat.lt_irrefl k ((h.mem_iff k).mp (.inl hk)).1

theorem not_mem_held (h : Progress ts k order held) : k ∉ held := fun hk =>
  Nat.lt_irrefl k (h.nested.lt_of_mem hk)

theorem number {x : Float} (hts : Balanced ts) (h : Progress ts k order held)
    (hk : ts[k]? = some (.number x)) : Progress ts (k + 1) (order ++ [k]) held where
  mem_iff := h.mem_iff_succ hk (by simp [Token.isParen]) fun i hi => by simp [hi]
  sorted := by
    refine pairwise_emittedBefore_append h.sorted h.early (List.pairwise_singleton _ k) ?_
    simpa using emissionTime_number hk
  early i hi := by
    rcases List.mem_append.mp hi with hi | hi
    · exact Nat.lt_succ_of_lt (h.early i hi)
    · rw [List.mem_singleton.mp hi, emissionTime_number hk]
      exact Nat.lt_succ_self k
  nested := h.nested.extend (Nat.le_succ k) (by
    rw [stretch_succ (Nat.le_refl k) hk, stretch_self]
    exact .single rfl)
  unreleased := h.unreleased_succ (fun i hi => .inr hi) fun i _ _ o ho hr => by
    obtain ⟨-, -, hc | ha⟩ := (releases_iff hts ho hk).mp hr
    · cases hc
    · cases ha

theorem openParen (hts : Balanced ts) (h : Progress ts k order held)
    (hk : ts[k]? = some .openParen) : Progress ts (k + 1) order (k :: held) where
  mem_iff := h.mem_iff_succ hk (by simp [h.not_mem_order, hk, Token.isParen]) fun i hi => by
    simp [hi]
  sorted := h.sorted
  early i hi := Nat.lt_succ_of_lt (h.early i hi)
  nested := ⟨Nat.lt_succ_self k, by simpa using .nil, h.nested⟩
  unreleased := h.unreleased_succ (fun i hi => List.mem_cons.mp hi) fun i _ _ o ho hr => by
    obtain ⟨-, -, hc | ha⟩ := (releases_iff hts ho hk).mp hr
    · cases hc
    · cases ha

/-- Operators on top whose time has come are emitted, the last of them first. -/
theorem sorted_append (h : Progress ts k order (popped ++ stay))
    (hops : ∀ i ∈ popped, ∃ o, ts[i]? = some (.op o))
    (htime : ∀ i ∈ popped, emissionTime ts i = k) :
    (order ++ popped).Pairwise (EmittedBefore ts) :=
  pairwise_emittedBefore_append h.sorted h.early (h.nested.drop hops).2.1 htime

theorem early_append (h : Progress ts k order held)
    (htime : ∀ i ∈ popped, emissionTime ts i = k) :
    ∀ i ∈ order ++ popped, emissionTime ts i < k + 1 := by
  intro i hi
  rcases List.mem_append.mp hi with hi | hi
  · exact Nat.lt_succ_of_lt (h.early i hi)
  · rw [htime i hi]
    exact Nat.lt_succ_self k

/-- Operators on top that the token at `k` acts on are released by it and by none before. -/
theorem emissionTime_popped (hts : Balanced ts) (h : Progress ts k order (popped ++ stay))
    (hk : ts[k]? = some t) (hops : ∀ i ∈ popped, ∃ o, ts[i]? = some (.op o))
    (hact : ∀ i ∈ popped, ∀ o, ts[i]? = some (.op o) →
      t = .closeParen ∨ (Token.op o).appliesBefore t = true) :
    ∀ i ∈ popped, emissionTime ts i = k := by
  intro i hi
  obtain ⟨o, ho⟩ := hops i hi
  have hlt := (List.getElem?_eq_some_iff.mp hk).1
  have hmem : i ∈ popped ++ stay := List.mem_append_left _ hi
  have hb := (h.nested.drop hops).2.2 i hi
  have hr := (releases_iff hts ho hk).mpr ⟨h.nested.lt_of_mem hmem, hb, hact i hi o ho⟩
  exact emissionTime_eq_of_releases ho hlt hr fun j hj => h.unreleased i hmem o ho j hj

theorem closeParen {a : Nat} (hts : Balanced ts) (h : Progress ts k order (popped ++ a :: stay))
    (hops : ∀ i ∈ popped, ∃ o, ts[i]? = some (.op o)) (ha : ts[a]? = some .openParen)
    (hk : ts[k]? = some .closeParen) : Progress ts (k + 1) (order ++ popped) stay := by
  have htime := h.emissionTime_popped hts hk hops fun _ _ _ _ => .inl rfl
  obtain ⟨hn, -, -⟩ := h.nested.drop hops
  have hheld := h.not_mem_held
  refine ⟨h.mem_iff_succ hk ?_ fun i hi => ?_, h.sorted_append hops htime, h.early_append htime,
    hn.close ha hk, h.unreleased_succ (fun i hi => .inr ?_) fun i hi _ o ho hr => ?_⟩
  · simp_all [h.not_mem_order, Token.isParen]
  · simp only [List.mem_append, List.mem_cons]
    grind
  · exact List.mem_append_right _ (List.mem_cons_of_mem _ hi)
  · exact hn.not_balanced ha hi ((releases_iff hts ho hk).mp hr).2.1

theorem op (hts : Balanced ts) (h : Progress ts k order (popped ++ stay))
    (hops : ∀ i ∈ popped, ∃ d, ts[i]? = some (.op d))
    (leave : ∀ i ∈ popped, ∀ d, ts[i]? = some (.op d) → d.binding.appliesBefore o.binding = true)
    (hw : stay.map (ts[·]?) = waiting.map (some ·.token))
    (remain : ∀ p ∈ waiting.head?, p.yieldsTo o = false) (hk : ts[k]? = some (.op o)) :
    Progress ts (k + 1) (order ++ popped) (k :: stay) := by
  have htime := h.emissionTime_popped hts hk hops fun i hi d hd => .inr (leave i hi d hd)
  obtain ⟨hn, -, -⟩ := h.nested.drop hops
  have hsub : ∀ i ∈ stay, i ∈ popped ++ stay := fun i hi => List.mem_append_right _ hi
  refine ⟨h.mem_iff_succ hk ?_ fun i hi => ?_, h.sorted_append hops htime, h.early_append htime,
    ⟨Nat.lt_succ_self k, by simpa using .nil, hn⟩, h.unreleased_succ (fun i hi => ?_) ?_⟩
  · simp [hk, Token.isParen]
  · simp only [List.mem_append, List.mem_cons]
    grind
  · exact (List.mem_cons.mp hi).imp_right (hsub i)
  · intro i hi hh d hd
    rcases List.mem_cons.mp hi with rfl | hi
    · exact absurd hh h.not_mem_held
    · exact not_releases_of_remain hts hn (fun i hi => h.unreleased i (hsub i hi)) hw hk remain hi hd

/-- Positions of operators that wait. -/
theorem exists_op_of_map (h : popped.map (ts[·]?) = (done.map Pending.operator).map (some ·.token)) :
    ∀ i ∈ popped, ∃ d ∈ done, ts[i]? = some (.op d) := by
  intro i hi
  have hmem := List.mem_map_of_mem (f := (ts[·]?)) hi
  rw [h] at hmem
  simp only [List.mem_map] at hmem
  obtain ⟨p, ⟨d, hd, rfl⟩, hp⟩ := hmem
  exact ⟨d, hd, hp.symm⟩

/-- One token keeps the invariant, whatever it does. -/
theorem step (hts : Balanced ts) (h : Progress ts k order held)
    (hw : held.map (ts[·]?) = waiting.map (some ·.token)) (hk : ts[k]? = some t)
    (hs : Shunts waiting t out rest) :
    ∃ more held', Progress ts (k + 1) (order ++ more) held' ∧
      more.map (ts[·]?) = out.map some ∧ held'.map (ts[·]?) = rest.map (some ·.token) := by
  cases hs with
  | number x => exact ⟨[k], held, h.number hts hk, by simp [hk], hw⟩
  | openParen =>
    exact ⟨[], k :: held, by simpa using h.openParen hts hk, rfl, by simp [hk, hw]⟩
  | closeParen done =>
    rw [List.map_append] at hw
    obtain ⟨popped, below, rfl, hp, hb⟩ := List.map_eq_append_iff.mp hw
    obtain ⟨a, stay, rfl, ha, hst⟩ := List.map_eq_cons_iff.mp hb
    have hops := exists_op_of_map hp
    refine ⟨popped, stay, h.closeParen hts (fun i hi => ?_) ha hk, ?_, hst⟩
    · obtain ⟨d, -, hd⟩ := hops i hi
      exact ⟨d, hd⟩
    · simpa [Function.comp_def] using hp
  | op leave remain =>
    rw [List.map_append] at hw
    obtain ⟨popped, stay, rfl, hp, hst⟩ := List.map_eq_append_iff.mp hw
    have hops := exists_op_of_map hp
    refine ⟨popped, k :: stay, h.op hts (fun i hi => ?_) (fun i hi d hd => ?_) hst remain hk, ?_, ?_⟩
    · obtain ⟨d, -, hd⟩ := hops i hi
      exact ⟨d, hd⟩
    · obtain ⟨e, he, hi⟩ := hops i hi
      cases hd.symm.trans hi
      exact leave d he
    · simpa [Function.comp_def] using hp
    · simp [hk, hst]

end Progress

/-- So does a run: after the tokens before `k`, the invariant holds at `k`. -/
theorem exists_progress (hts : Balanced ts) (hk : k ≤ ts.length)
    (h : Reads [] (ts.take k) out rest) :
    ∃ order held, Progress ts k order held ∧ order.map (ts[·]?) = out.map some ∧
      held.map (ts[·]?) = rest.map (some ·.token) := by
  induction k generalizing out rest with
  | zero =>
    rw [List.take_zero] at h
    obtain _ | _ := h
    exact ⟨[], [], ⟨by simp, .nil, by simp, by simpa [Nested] using Balanced.nil, by simp⟩, rfl, rfl⟩
  | succ k ih =>
    obtain ⟨t, ht⟩ : ∃ t, ts[k]? = some t := ⟨ts[k], List.getElem?_eq_getElem hk⟩
    rw [List.take_add_one, ht] at h
    obtain ⟨before, middle, now, hb, hn, rfl⟩ := reads_append_iff.mp h
    obtain ⟨order, held, hp, ho, hh⟩ := ih (Nat.le_of_succ_le hk) hb
    obtain ⟨more, held', hp', hm, hh'⟩ := hp.step hts hh ht (reads_singleton_iff.mp hn)
    exact ⟨order ++ more, held', hp', by simp [ho, hm], hh'⟩

end Steps

/-! ## The order of a conversion -/

section Order

variable {ts out : List Token} {order : List Nat} {p : Postfix}

theorem nodup_of_pairwise (h : order.Pairwise (EmittedBefore ts)) : order.Nodup := by
  refine h.imp fun hij heq => ?_
  subst heq
  obtain hlt | ⟨-, hlt⟩ := hij <;> exact Nat.lt_irrefl _ hlt

theorem mem_nonParenPositions {i : Nat} :
    i ∈ nonParenPositions ts ↔ ∃ t, ts[i]? = some t ∧ t.isParen = false := by
  simp only [nonParenPositions, List.mem_filter, List.mem_range, Option.any_eq_true,
    Bool.not_eq_true']
  refine ⟨fun h => h.2, fun h => ⟨?_, h⟩⟩
  obtain ⟨t, ht, -⟩ := h
  exact (List.getElem?_eq_some_iff.mp ht).1

theorem nodup_nonParenPositions (ts : List Token) : (nonParenPositions ts).Nodup :=
  List.nodup_range.filter _

private theorem map_some_filter (q : Token → Bool) (us : List Token) :
    (us.filter q).map some = (us.map some).filter (·.any q) := by
  rw [List.filter_map]
  rfl

/-- The tokens at filtered positions are the filtered tokens. -/
private theorem map_filter_positions (h : order.map (ts[·]?) = out.map some) (q : Token → Bool) :
    (order.filter fun i => ts[i]?.any q).map (ts[·]?) = (out.filter q).map some := by
  rw [map_some_filter, ← h, List.filter_map]
  rfl

private theorem map_range_getElem? (ts : List Token) :
    (List.range ts.length).map (ts[·]?) = ts.map some := by
  refine List.ext_getElem (by simp) fun i h _ => ?_
  simp at h
  simp [h]

/-- Numbers are emitted in the order in which they are read. -/
theorem InEmissionOrder.numbers (h : InEmissionOrder ts out) :
    out.filter Token.isNumber = ts.filter Token.isNumber := by
  obtain ⟨order, hperm, hsorted, hout⟩ := h
  have time : ∀ i, ts[i]?.any Token.isNumber = true → emissionTime ts i = i := by
    intro i hi
    cases ht : ts[i]? with
    | none => simp [ht] at hi
    | some t =>
      rw [ht] at hi
      cases t <;> first | exact emissionTime_number ht | cases hi
  have positions : order.filter (fun i => ts[i]?.any Token.isNumber) =
      (List.range ts.length).filter fun i => ts[i]?.any Token.isNumber := by
    refine List.Perm.eq_of_pairwise (fun i j _ _ hij hji => absurd hij (Nat.lt_asymm hji)) ?_
      (List.pairwise_lt_range.filter _) ?_
    · refine (hsorted.filter _).imp_of_mem fun hi hj hij => ?_
      rw [EmittedBefore, time _ (List.mem_filter.mp hi).2, time _ (List.mem_filter.mp hj).2] at hij
      omega
    · refine (hperm.filter _).trans (List.Perm.of_eq ?_)
      rw [nonParenPositions, List.filter_filter]
      refine List.filter_congr fun i _ => ?_
      cases ts[i]? with
      | none => rfl
      | some t => cases t <;> rfl
  have := map_filter_positions hout Token.isNumber
  rw [positions, map_filter_positions (map_range_getElem? ts)] at this
  exact ((List.map_inj_right fun _ _ => Option.some.inj).mp this).symm

/-- Once all tokens are read and only operators wait, what is emitted and what waits are in
order. -/
theorem Progress.inEmissionOrder {held : List Nat} {last : List Operator}
    (h : Progress ts ts.length order held)
    (hops : held.map (ts[·]?) = (last.map Pending.operator).map (some ·.token))
    (hout : order.map (ts[·]?) = out.map some) : InEmissionOrder ts (out ++ last.map .op) := by
  have hop : ∀ i ∈ held, ∃ o, ts[i]? = some (.op o) := fun i hi =>
    (Progress.exists_op_of_map hops i hi).imp fun _ ho => ho.2
  have htime : ∀ i ∈ held, emissionTime ts i = ts.length := by
    intro i hi
    obtain ⟨o, ho⟩ := hop i hi
    exact emissionTime_eq_length ho (h.unreleased i hi o ho)
  have hsorted : (order ++ held).Pairwise (EmittedBefore ts) := by
    rw [← List.append_nil held] at h
    exact h.sorted_append hop htime
  refine ⟨order ++ held, ?_, hsorted, ?_⟩
  · refine (List.perm_ext_iff_of_nodup (nodup_of_pairwise hsorted)
      (nodup_nonParenPositions ts)).mpr fun i => ?_
    rw [mem_nonParenPositions, List.mem_append]
    have hi := h.mem_iff i
    have hne : i ∈ held → ts[i]? ≠ some .openParen := by
      intro hm
      obtain ⟨o, ho⟩ := hop i hm
      simp [ho]
    have hlt : (∃ t, ts[i]? = some t ∧ t.isParen = false) → i < ts.length := by
      rintro ⟨t, ht, -⟩
      exact (List.getElem?_eq_some_iff.mp ht).1
    grind
  · rw [List.map_append, hout, hops]
    simp [Function.comp_def]

/-- The order of emission determines what is emitted. -/
theorem InEmissionOrder.unique {out' : List Token} (h : InEmissionOrder ts out)
    (h' : InEmissionOrder ts out') : out = out' := by
  obtain ⟨order, hperm, hsorted, hout⟩ := h
  obtain ⟨order', hperm', hsorted', hout'⟩ := h'
  have : order = order' := by
    refine List.Perm.eq_of_pairwise (fun i j _ _ hij hji => ?_) hsorted hsorted'
      (hperm.trans hperm'.symm)
    unfold EmittedBefore at hij hji
    omega
  rw [← this, hout] at hout'
  exact (List.map_inj_right fun _ _ => Option.some.inj).mp hout'

/-- **Emission order.** A conversion that succeeds, of whatever tokens, emits those that are no
parentheses in the order of emission: none is lost, and the numbers keep their order. -/
theorem convert_emission_order (h : (Postfix.convert ts).result = .ok p) :
    (∀ out, InEmissionOrder ts out ↔ out = p.tokens) ∧
      p.tokens.Perm (ts.filter (!·.isParen)) ∧
      p.tokens.filter Token.isNumber = ts.filter Token.isNumber := by
  obtain ⟨out, rest, last, hr, hl, hp⟩ := Postfix.result_convert_eq_ok_iff.mp h
  obtain ⟨done, rfl, rfl⟩ := Postfix.flush_eq_ok_iff.mp hl
  rw [← List.take_length (l := ts)] at hr
  obtain ⟨order, held, hprog, hout, hheld⟩ :=
    exists_progress (Postfix.balanced_of_convert h) (Nat.le_refl _) hr
  have horder : InEmissionOrder ts p.tokens := hp ▸ hprog.inEmissionOrder hheld hout
  exact ⟨fun _ => ⟨fun h => h.unique horder, fun h => h ▸ horder⟩, Postfix.perm_of_convert h,
    horder.numbers⟩

/-- The tokens `+ 1 2 ( * 3 - ( ) ) / 4 +`, which are no sentence. -/
def straggling : List Token :=
  [.op .add, .number 1, .number 2, .openParen, .op .mul, .number 3, .op .sub, .openParen,
    .closeParen, .closeParen, .op .div, .number 4, .op .add]

/-- What they emit: `1 2 3 * - 4 / + +`. -/
def straggled : List Token :=
  [.number 1, .number 2, .number 3, .op .mul, .op .sub, .number 4, .op .div, .op .add, .op .add]

theorem convert_straggling : (Postfix.convert straggling).result = .ok ⟨straggled⟩ := by
  simp [Postfix.result_convert, straggling, straggled, Postfix.fst_convertFrom_cons, Postfix.shunt,
    Postfix.release, Postfix.unwind, Postfix.flush, Operator.binding, Binding.appliesBefore,
    Except.map]

theorem emission_order_straggling :
    (Postfix.convert straggling).result = .ok ⟨straggled⟩ ∧
      (∀ out, InEmissionOrder straggling out ↔ out = straggled) ∧
      straggled.Perm (straggling.filter (!·.isParen)) ∧
      straggled.filter Token.isNumber = straggling.filter Token.isNumber :=
  ⟨convert_straggling, convert_emission_order convert_straggling⟩

end Order

end Reckoner
