import Reckoner.Token

/-!
# Parentheses and blocks

A list of tokens is `Balanced` when its parentheses pair up. The pairs cut the positions of the
list into blocks: two positions are in the same block when the same innermost pair, or none, is
around them.

* `Balanced.append`, `Balanced.of_append_left`, `Balanced.of_append_right`: of two lists and the
  two together, any two being balanced makes the third balanced.
* `exists_close`, `exists_open`: where there are more parentheses of one side than of the other,
  one of them has no partner.
* `innermost_iff`, `sameBlock_iff`, `exists_innermost_iff`: in a balanced list, blocks are told by
  what stands between two positions.
-/

namespace Reckoner

namespace Token

/-- How a token changes the number of open parentheses. -/
def weight : Token → Int
  | openParen => 1
  | closeParen => -1
  | _ => 0

/-- A parenthesis of either side. -/
def isParen : Token → Bool
  | openParen | closeParen => true
  | _ => false

/-- A number. -/
def isNumber : Token → Bool
  | number _ => true
  | _ => false

/-- An operator. -/
def isOperator : Token → Bool
  | op _ => true
  | _ => false

@[simp] theorem weight_openParen : openParen.weight = 1 := rfl

@[simp] theorem weight_closeParen : closeParen.weight = -1 := rfl

theorem weight_of_not_isParen {t : Token} (h : t.isParen = false) : t.weight = 0 := by
  cases t <;> first | rfl | cases h

theorem eq_paren_or (t : Token) : t = openParen ∨ t = closeParen ∨ t.isParen = false := by
  cases t <;> simp [isParen]

end Token

/-- The number of parentheses that are opened, less those that are closed. -/
def depth : List Token → Int
  | [] => 0
  | t :: ts => t.weight + depth ts

@[simp] theorem depth_nil : depth [] = 0 := rfl

@[simp] theorem depth_cons (t : Token) (ts : List Token) :
    depth (t :: ts) = t.weight + depth ts := rfl

@[simp] theorem depth_append (ts us : List Token) : depth (ts ++ us) = depth ts + depth us := by
  induction ts with
  | nil => simp
  | cons t ts ih =>
    rw [List.cons_append, depth_cons, depth_cons, ih]
    omega

/-- Every parenthesis has its partner. -/
structure Balanced (ts : List Token) : Prop where
  /-- None stays open. -/
  closed : depth ts = 0
  /-- None is closed before it is opened. -/
  opened : ∀ pre, pre <+: ts → 0 ≤ depth pre

instance (ts : List Token) : Decidable (Balanced ts) :=
  decidable_of_iff (depth ts = 0 ∧ ∀ n < ts.length, 0 ≤ depth (ts.take n)) <| by
    constructor
    · rintro ⟨hd, hp⟩
      refine ⟨hd, fun pre h => ?_⟩
      rw [List.prefix_iff_eq_take.mp h]
      rcases Nat.lt_or_eq_of_le h.length_le with hl | hl
      · exact hp _ hl
      · rw [hl, List.take_length]
        exact Int.le_of_eq hd.symm
    · rintro ⟨hd, hp⟩
      exact ⟨hd, fun n _ => hp _ (List.take_prefix n ts)⟩

/-- A prefix ends in the first part, or it is the first part and a prefix of the second. -/
theorem prefix_append_cases {ts us pre : List Token} (h : pre <+: ts ++ us) :
    pre <+: ts ∨ ∃ more, more <+: us ∧ pre = ts ++ more := by
  rcases List.prefix_or_prefix_of_prefix h (List.prefix_append ts us) with h' | ⟨more, rfl⟩
  · exact .inl h'
  · exact .inr ⟨more, (List.prefix_append_right_inj ts).mp h, rfl⟩

namespace Balanced

variable {ts us : List Token} {t : Token}

theorem nil : Balanced [] := by decide

theorem single (h : t.isParen = false) : Balanced [t] := by
  have hw := Token.weight_of_not_isParen h
  refine ⟨by simp [hw], fun pre hp => ?_⟩
  rcases List.prefix_cons_iff.mp hp with rfl | ⟨more, rfl, hm⟩
  · exact Int.le_refl 0
  · simp [List.prefix_nil.mp hm, hw]

theorem append (h : Balanced ts) (h' : Balanced us) : Balanced (ts ++ us) := by
  refine ⟨by rw [depth_append, h.closed, h'.closed]; rfl, fun pre hp => ?_⟩
  rcases prefix_append_cases hp with hp | ⟨more, hm, rfl⟩
  · exact h.opened pre hp
  · have := h'.opened more hm
    rw [depth_append, h.closed]
    omega

theorem of_append_right (h : Balanced (ts ++ us)) (h' : Balanced ts) : Balanced us := by
  have hd := h.closed
  rw [depth_append, h'.closed] at hd
  refine ⟨by omega, fun pre hp => ?_⟩
  have := h.opened (ts ++ pre) ((List.prefix_append_right_inj ts).mpr hp)
  rw [depth_append, h'.closed] at this
  omega

theorem of_append_left (h : Balanced (ts ++ us)) (h' : Balanced us) : Balanced ts := by
  have hd := h.closed
  rw [depth_append, h'.closed] at hd
  exact ⟨by omega, fun pre hp => h.opened pre (hp.trans (List.prefix_append ts us))⟩

/-- The end of a balanced list closes at least what it opens. -/
theorem depth_suffix_nonpos (h : Balanced (ts ++ us)) : depth us ≤ 0 := by
  have hd := h.closed
  have := h.opened ts (List.prefix_append ts us)
  rw [depth_append] at hd
  omega

/-- Balanced lists stay balanced with a token between them that is no parenthesis. -/
theorem glue (h : Balanced ts) (ht : t.isParen = false) (h' : Balanced us) :
    Balanced (ts ++ t :: us) :=
  h.append ((single ht).append h')

/-- Parentheses around a balanced list are partners. -/
theorem wrap (h : Balanced ts) : Balanced (.openParen :: (ts ++ [.closeParen])) := by
  refine ⟨by simp [h.closed], fun pre hp => ?_⟩
  rcases List.prefix_cons_iff.mp hp with rfl | ⟨inner, rfl, hi⟩
  · exact Int.le_refl 0
  rw [depth_cons, Token.weight_openParen]
  rcases prefix_append_cases hi with hi | ⟨more, hm, rfl⟩
  · have := h.opened inner hi
    omega
  · rcases List.prefix_cons_iff.mp hm with rfl | ⟨none, rfl, hn⟩
    · simp [h.closed]
    · simp [List.prefix_nil.mp hn, h.closed]

end Balanced

/-- The first closing parenthesis without a partner. -/
theorem exists_close {ts : List Token} (h : depth ts < 0) :
    ∃ mid post, ts = mid ++ .closeParen :: post ∧ Balanced mid := by
  induction hn : ts.length using Nat.strongRecOn generalizing ts with
  | ind n ih =>
    match ts with
    | [] => simp at h
    | t :: ts =>
      rw [depth_cons] at h
      rw [List.length_cons] at hn
      rcases t.eq_paren_or with rfl | rfl | ht
      · -- The partner of the first parenthesis comes first, and then the one without.
        rw [Token.weight_openParen] at h
        obtain ⟨mid, post, rfl, hm⟩ := ih ts.length (by omega) (by omega) rfl
        rw [depth_append, depth_cons, Token.weight_closeParen, hm.closed] at h
        rw [List.length_append, List.length_cons] at hn
        obtain ⟨mid', post', rfl, hm'⟩ := ih post.length (by omega) (by omega) rfl
        exact ⟨_, post', by simp, hm.wrap.append hm'⟩
      · exact ⟨[], ts, rfl, .nil⟩
      · rw [Token.weight_of_not_isParen ht, Int.zero_add] at h
        obtain ⟨mid, post, rfl, hm⟩ := ih ts.length (by omega) h rfl
        exact ⟨_, post, rfl, (Balanced.single ht).append hm⟩

/-- The last opening parenthesis without a partner. -/
theorem exists_open {ts : List Token} (h : 0 < depth ts) :
    ∃ pre mid, ts = pre ++ .openParen :: mid ∧ Balanced mid := by
  induction hn : ts.length using Nat.strongRecOn generalizing ts with
  | ind n ih =>
    rcases List.eq_nil_or_concat ts with rfl | ⟨ts, t, rfl⟩
    · simp at h
    · rw [List.concat_eq_append] at h hn ⊢
      rw [depth_append, depth_cons, depth_nil] at h
      rw [List.length_append, List.length_singleton] at hn
      rcases t.eq_paren_or with rfl | rfl | ht
      · exact ⟨ts, [], rfl, .nil⟩
      · rw [Token.weight_closeParen] at h
        obtain ⟨pre, mid, rfl, hm⟩ := ih ts.length (by omega) (by omega) rfl
        rw [depth_append, depth_cons, Token.weight_openParen, hm.closed] at h
        rw [List.length_append, List.length_cons] at hn
        obtain ⟨pre', mid', rfl, hm'⟩ := ih pre.length (by omega) (by omega) rfl
        exact ⟨pre', _, by simp, hm'.append hm.wrap⟩
      · rw [Token.weight_of_not_isParen ht] at h
        obtain ⟨pre, mid, rfl, hm⟩ := ih ts.length (by omega) (by omega) rfl
        exact ⟨pre, mid ++ [t], by simp, hm.append (.single ht)⟩

/-! ## Stretches of a list -/

/-- The tokens from position `i` up to position `j`, the latter not included. -/
def stretch (ts : List Token) (i j : Nat) : List Token :=
  (ts.drop i).take (j - i)

section Stretches

variable {ts : List Token} {i j k : Nat} {t : Token}

@[simp] theorem stretch_self (ts : List Token) (i : Nat) : stretch ts i i = [] := by
  simp [stretch]

@[simp] theorem stretch_zero_length (ts : List Token) : stretch ts 0 ts.length = ts := by
  simp [stretch]

theorem stretch_append (hij : i ≤ j) (hjk : j ≤ k) :
    stretch ts i j ++ stretch ts j k = stretch ts i k := by
  unfold stretch
  rw [show k - i = (j - i) + (k - j) by omega, List.take_add, List.drop_drop,
    show i + (j - i) = j by omega]

theorem stretch_succ (hij : i ≤ j) (ht : ts[j]? = some t) :
    stretch ts i (j + 1) = stretch ts i j ++ [t] := by
  unfold stretch
  rw [show j + 1 - i = (j - i) + 1 by omega, List.take_add_one, List.getElem?_drop,
    show i + (j - i) = j by omega, ht]
  rfl

theorem stretch_cons (hij : i < j) (ht : ts[i]? = some t) :
    stretch ts i j = t :: stretch ts (i + 1) j := by
  rw [← stretch_append (Nat.le_succ i) hij, stretch_succ (Nat.le_refl i) ht, stretch_self]
  rfl

/-- A stretch is cut in three by a position inside it. -/
theorem stretch_cut (hik : i ≤ k) (hkj : k < j) (ht : ts[k]? = some t) :
    stretch ts i j = stretch ts i k ++ t :: stretch ts (k + 1) j := by
  rw [← stretch_cons hkj ht, stretch_append hik (Nat.le_of_lt hkj)]

theorem stretch_prefix_stretch (hjk : j ≤ k) : stretch ts i j <+: stretch ts i k := by
  unfold stretch
  exact List.take_prefix_take_left (by omega)

theorem stretch_zero_prefix_self (ts : List Token) (j : Nat) : stretch ts 0 j <+: ts :=
  List.take_prefix _ _

/-- A cut of a stretch is a position inside it. -/
theorem stretch_eq_append {pre mid : List Token} (h : stretch ts i j = pre ++ t :: mid) :
    i + pre.length < j ∧ ts[i + pre.length]? = some t ∧
      stretch ts i (i + pre.length) = pre ∧ stretch ts (i + pre.length + 1) j = mid := by
  have hlt : i + pre.length < j := by
    have := congrArg List.length h
    simp only [stretch, List.length_take, List.length_append, List.length_cons] at this
    omega
  have ht : ts[i + pre.length]? = some t := by
    have := congrArg (·[pre.length]?) h
    simp only [stretch, List.getElem?_take, List.getElem?_drop, List.getElem?_append_right,
      Nat.le_refl, Nat.sub_self, List.getElem?_cons_zero] at this
    rwa [if_pos (by omega)] at this
  have hcut := stretch_cut (Nat.le_add_right i pre.length) hlt ht
  have hl : (stretch ts i (i + pre.length)).length = pre.length := by
    have := (List.getElem?_eq_some_iff.mp ht).1
    simp only [stretch, List.length_take, List.length_drop]
    omega
  rw [h] at hcut
  obtain ⟨hpre, hmid⟩ := List.append_inj hcut hl.symm
  exact ⟨hlt, ht, hpre.symm, (List.cons.inj hmid).2.symm⟩

end Stretches

/-! ## Blocks -/

/-- The parentheses at positions `a` and `b` are partners. -/
def Matching (ts : List Token) (a b : Nat) : Prop :=
  a < b ∧ ts[a]? = some .openParen ∧ ts[b]? = some .closeParen ∧ Balanced (stretch ts (a + 1) b)

instance (ts : List Token) (a b : Nat) : Decidable (Matching ts a b) :=
  inferInstanceAs (Decidable (_ ∧ _))

/-- Of the pairs of parentheses around position `i`, the innermost is that at `a` and `b`. -/
def Innermost (ts : List Token) (a b i : Nat) : Prop :=
  Matching ts a b ∧ a < i ∧ i < b ∧
    ∀ a' < i, ∀ b' < ts.length, Matching ts a' b' → i < b' → a' ≤ a

instance (ts : List Token) (a b i : Nat) : Decidable (Innermost ts a b i) :=
  inferInstanceAs (Decidable (_ ∧ _))

/-- The same innermost pair of parentheses, or none, is around both positions. -/
def SameBlock (ts : List Token) (i j : Nat) : Prop :=
  ∀ a < ts.length, ∀ b < ts.length, Innermost ts a b i ↔ Innermost ts a b j

instance (ts : List Token) (i j : Nat) : Decidable (SameBlock ts i j) :=
  inferInstanceAs (Decidable (∀ a < ts.length, ∀ b < ts.length, _))

section Blocks

variable {ts : List Token} {a b i j : Nat} {t u : Token}

theorem Matching.lt_length (h : Matching ts a b) : b < ts.length :=
  (List.getElem?_eq_some_iff.mp h.2.2.1).1

/-- In a balanced list every opening parenthesis has a partner. -/
theorem exists_matching (hts : Balanced ts) (ha : ts[a]? = some .openParen) :
    ∃ b, Matching ts a b := by
  have hlt := (List.getElem?_eq_some_iff.mp ha).1
  have hcut := stretch_cut (Nat.zero_le a) hlt ha
  rw [stretch_zero_length] at hcut
  have hd := Balanced.depth_suffix_nonpos (hcut ▸ hts)
  rw [depth_cons, Token.weight_openParen] at hd
  have hneg : depth (stretch ts (a + 1) ts.length) < 0 := by omega
  obtain ⟨mid, post, hm, hb⟩ := exists_close hneg
  obtain ⟨-, hc, hs, -⟩ := stretch_eq_append hm
  exact ⟨a + 1 + mid.length, by omega, ha, hc, by rwa [hs]⟩

/-- A parenthesis that a stretch opens and does not close. -/
theorem exists_unclosed {k : Nat} (h : 0 < depth (stretch ts k i)) :
    ∃ a, k ≤ a ∧ a < i ∧ ts[a]? = some .openParen ∧ Balanced (stretch ts (a + 1) i) := by
  obtain ⟨pre, mid, hs, hm⟩ := exists_open h
  obtain ⟨hlt, ha, -, hmid⟩ := stretch_eq_append hs
  exact ⟨k + pre.length, by omega, hlt, ha, by rwa [hmid]⟩

/-- Partners are around a position if what stands between the first of them and the position is
balanced. -/
theorem Matching.lt_of_balanced (h : Matching ts a b) (hi : ts[i]? = some t)
    (ht : t.isParen = false) (hbal : Balanced (stretch ts (a + 1) i)) : i < b := by
  obtain ⟨hlt, -, hb, hin⟩ := h
  rcases Nat.lt_trichotomy i b with h | rfl | h
  · exact h
  · cases hi.symm.trans hb
    cases ht
  · have hcut := stretch_cut (i := a + 1) hlt h hb
    have := hbal.opened (stretch ts (a + 1) (b + 1)) (stretch_prefix_stretch h)
    rw [stretch_succ hlt hb, depth_append, hin.closed] at this
    simp at this

/-- An innermost pair is one from whose first parenthesis on all pairs are closed again. -/
theorem innermost_iff (hts : Balanced ts) (hi : ts[i]? = some t) (ht : t.isParen = false) :
    Innermost ts a b i ↔ Matching ts a b ∧ a < i ∧ Balanced (stretch ts (a + 1) i) := by
  constructor
  · rintro ⟨hm, hai, hib, hmax⟩
    refine ⟨hm, hai, ?_⟩
    have hpre : ∀ pre, pre <+: stretch ts (a + 1) i → 0 ≤ depth pre := fun pre hp =>
      hm.2.2.2.opened pre (hp.trans (stretch_prefix_stretch (Nat.le_of_lt hib)))
    refine ⟨?_, hpre⟩
    rcases Int.lt_or_eq_of_le (hpre _ (List.prefix_refl _)) with hd | hd
    · -- A pair that is still open at the position would be further in.
      obtain ⟨a', ha', hlt, hopen, hbal⟩ := exists_unclosed hd
      obtain ⟨b', hm'⟩ := exists_matching hts hopen
      have := hmax a' hlt b' hm'.lt_length hm' (hm'.lt_of_balanced hi ht hbal)
      omega
    · exact hd.symm
  · rintro ⟨hm, hai, hbal⟩
    refine ⟨hm, hai, hm.lt_of_balanced hi ht hbal, fun a' ha' b' _ hm' hib' => ?_⟩
    refine Nat.le_of_not_lt fun hlt => ?_
    have hcut := stretch_cut (i := a + 1) hlt ha' hm'.2.1
    have hsuffix := Balanced.depth_suffix_nonpos (hcut ▸ hbal)
    have hprefix := hm'.2.2.2.opened _ (stretch_prefix_stretch (i := a' + 1) (Nat.le_of_lt hib'))
    rw [depth_cons, Token.weight_openParen] at hsuffix
    omega

/-- Without a pair around it, a position has balanced tokens before it. -/
theorem balanced_of_not_innermost (hts : Balanced ts) (hi : ts[i]? = some t)
    (ht : t.isParen = false) (h : ∀ a b, ¬ Innermost ts a b i) : Balanced (stretch ts 0 i) := by
  have hpre : ∀ pre, pre <+: stretch ts 0 i → 0 ≤ depth pre := fun pre hp =>
    hts.opened pre (hp.trans (stretch_zero_prefix_self ts i))
  refine ⟨?_, hpre⟩
  rcases Int.lt_or_eq_of_le (hpre _ (List.prefix_refl _)) with hd | hd
  · obtain ⟨a, -, hai, hopen, hbal⟩ := exists_unclosed hd
    obtain ⟨b, hm⟩ := exists_matching hts hopen
    exact absurd ((innermost_iff hts hi ht).mpr ⟨hm, hai, hbal⟩) (h a b)
  · exact hd.symm

private theorem stretch_cut_at (hij : i < j) (hi : ts[i]? = some t) {k : Nat} (hk : k ≤ i) :
    stretch ts k j = (stretch ts k i ++ [t]) ++ stretch ts (i + 1) j := by
  rw [stretch_cut hk hij hi, List.append_assoc, List.singleton_append]

/-- Two positions of a block, neither of them a parenthesis, have balanced tokens between them. -/
theorem sameBlock_iff (hts : Balanced ts) (hij : i < j) (hi : ts[i]? = some t)
    (ht : t.isParen = false) (hj : ts[j]? = some u) (hu : u.isParen = false) :
    SameBlock ts i j ↔ Balanced (stretch ts (i + 1) j) := by
  constructor
  · intro h
    -- Both positions are reached by balanced tokens from the start of the block.
    have start : ∃ k, k ≤ i ∧ Balanced (stretch ts k i) ∧ Balanced (stretch ts k j) := by
      by_cases hin : ∃ a b, Innermost ts a b i
      · obtain ⟨a, b, hab⟩ := hin
        have hb := hab.1.lt_length
        have hab' := (h a (Nat.lt_trans hab.1.1 hb) b hb).mp hab
        exact ⟨a + 1, hab.2.1, ((innermost_iff hts hi ht).mp hab).2.2,
          ((innermost_iff hts hj hu).mp hab').2.2⟩
      · have hi' : ∀ a b, ¬ Innermost ts a b i := fun a b hab => hin ⟨a, b, hab⟩
        refine ⟨0, Nat.zero_le i, balanced_of_not_innermost hts hi ht hi', ?_⟩
        refine balanced_of_not_innermost hts hj hu fun a b hab => ?_
        have hb := hab.1.lt_length
        exact hi' a b ((h a (Nat.lt_trans hab.1.1 hb) b hb).mpr hab)
    obtain ⟨k, hk, hbi, hbj⟩ := start
    rw [stretch_cut_at hij hi hk] at hbj
    exact hbj.of_append_right (hbi.append (.single ht))
  · intro h a _ b _
    rw [innermost_iff hts hi ht, innermost_iff hts hj hu]
    constructor
    · rintro ⟨hm, hai, hbal⟩
      refine ⟨hm, Nat.lt_trans hai hij, ?_⟩
      rw [stretch_cut_at hij hi hai]
      exact (hbal.append (.single ht)).append h
    · rintro ⟨hm, haj, hbal⟩
      have hai : a < i := by
        rcases Nat.lt_trichotomy a i with hlt | rfl | hlt
        · exact hlt
        · cases hi.symm.trans hm.2.1
          cases ht
        · have hcut := stretch_cut (i := i + 1) hlt haj hm.2.1
          have := Balanced.depth_suffix_nonpos (hcut ▸ h)
          rw [depth_cons, Token.weight_openParen, hbal.closed] at this
          omega
      rw [stretch_cut_at hij hi hai] at hbal
      exact ⟨hm, hai, (hbal.of_append_left h).of_append_left (.single ht)⟩

/-- A parenthesis closes the block of a position when the tokens between them are balanced. -/
theorem exists_innermost_iff (hts : Balanced ts) (hij : i < j) (hi : ts[i]? = some t)
    (ht : t.isParen = false) :
    (∃ a < i, Innermost ts a j i) ↔
      ts[j]? = some .closeParen ∧ Balanced (stretch ts (i + 1) j) := by
  constructor
  · rintro ⟨a, -, hin⟩
    obtain ⟨hm, hai, hbal⟩ := (innermost_iff hts hi ht).mp hin
    refine ⟨hm.2.2.1, ?_⟩
    have hin' := hm.2.2.2
    rw [stretch_cut_at hij hi hai] at hin'
    exact hin'.of_append_right (hbal.append (.single ht))
  · rintro ⟨hc, hbal⟩
    -- The parenthesis at `j` closes one that is open already at `i`.
    have hd : 0 < depth (stretch ts 0 i) := by
      have := hts.opened _ (stretch_zero_prefix_self ts (j + 1))
      rw [stretch_succ (Nat.zero_le j) hc, stretch_cut (Nat.zero_le i) hij hi] at this
      simp [hbal.closed, Token.weight_of_not_isParen ht] at this
      omega
    obtain ⟨a, -, hai, hopen, hbal'⟩ := exists_unclosed hd
    refine ⟨a, hai, (innermost_iff hts hi ht).mpr ⟨⟨by omega, hopen, hc, ?_⟩, hai, hbal'⟩⟩
    rw [stretch_cut_at hij hi hai]
    exact (hbal'.append (.single ht)).append hbal

end Blocks

end Reckoner
