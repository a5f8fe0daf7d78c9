import Mathlib.Tactic
import EufySdk.Lib.Lists
import EufySdk.Transport.P2p.SessionLifecycle

/-!
# The session manager's books

Timers and deferred resets belong to an entry, entries are discarded by five paths and
created again under the same serial, and timers find their station by serial. Behind every
run, a hold that is pending is one of the present entry it was taken on, a deferred reset
waits for a retain that is no hold, it settles once and as the close of its entry did, and
an idle window runs on a present entry that nothing retains.

- `Kept` — the invariant
- `Kept.change`, `Kept.discard`, `Kept.closeEntry`, `Kept.settles` — what the primitive
  changes keep
- `Balanced`, `books_balance` — what holds behind every run
-/

namespace EufySdk.SessionLifecycle

open Machine

namespace Manager

variable {κ : Type*}

/-- The books, while the entries in hand are discarded and their close has not begun. -/
structure Kept (hand : List ℕ) (m : Manager κ) : Prop where
  valid : ∀ key k, m.entries key = some k → ∃ e, m.objects[k]? = some e ∧ e.key = key
  holds : ∀ (i : ℕ) h, m.holds[i]? = some h → h.pending = true →
    ∃ e, m.objects[h.entry]? = some e ∧ e.key = h.key ∧ m.entries h.key = some h.entry ∧
      i ∈ e.holdTimers
  blocked : ∀ (k : ℕ) e, m.objects[k]? = some e → m.entries e.key = some k →
    e.reset.isSome = true → e.holdTimers.length < e.retained
  idle : ∀ (k : ℕ) e, m.objects[k]? = some e → e.idle = true →
    m.entries e.key = some k ∧ e.retained = 0
  deferred : ∀ (k : ℕ) e r, m.objects[k]? = some e → e.reset = some r →
    (∃ p, m.resets[r]? = some p ∧ p.entry = k ∧ p.settlements = []) ∧
      (m.entries e.key = some k ∨ k ∈ hand ∨
        ∃ (c : ℕ) (x : Closing), m.closings[c]? = some x ∧ x.entry = k ∧ x.outcome = none)
  closings : ∀ (c : ℕ) x, m.closings[c]? = some x →
    x.entry ∉ hand ∧ ∃ e, m.objects[x.entry]? = some e ∧ m.entries e.key ≠ some x.entry
  single : ∀ (c d : ℕ) x y, m.closings[c]? = some x → m.closings[d]? = some y →
    x.entry = y.entry → c = d
  resets : ∀ (r : ℕ) p, m.resets[r]? = some p →
    (∃ e, m.objects[p.entry]? = some e ∧ e.reset = some r) ∨
      ∃ o, p.settlements = [o] ∧ p.entry ∉ hand ∧
        (∃ e, m.objects[p.entry]? = some e ∧ m.entries e.key ≠ some p.entry) ∧
        (∀ (c : ℕ) x, m.closings[c]? = some x → x.entry = p.entry → x.outcome = some o) ∧
        ((∃ (c : ℕ) (x : Closing), m.closings[c]? = some x ∧ x.entry = p.entry) ∨ o = .resolved)
  discarded : ∀ k ∈ hand, ∃ e, m.objects[k]? = some e ∧ m.entries e.key ≠ some k
  nodup : hand.Nodup
  called : ∀ p ∈ m.resetCalls, (∀ c, p = .closing c → c < m.closings.length) ∧
    ∀ r, p = .reset r → r < m.resets.length

namespace Kept

variable {m n : Manager κ} {hand : List ℕ} {k : ℕ} {key : κ}

theorem start : Kept [] ({} : Manager κ) where
  valid key k h := by cases h
  holds i h hi := by simp at hi
  blocked k e h := by simp at h
  idle k e h := by simp at h
  deferred k e r h := by simp at h
  closings c x h := by simp at h
  single c d x y h := by simp at h
  resets r p h := by simp at h
  discarded k h := by cases h
  nodup := List.nodup_nil
  called p h := by cases h

/-- Nothing changes that the books are about. -/
theorem of_eq (h : m.Kept hand) (hobjects : n.objects = m.objects) (hentries : n.entries = m.entries)
    (hholds : n.holds = m.holds) (hresets : n.resets = m.resets)
    (hclosings : n.closings = m.closings) (hcalls : n.resetCalls = m.resetCalls) : n.Kept hand where
  valid := by rw [hobjects, hentries]; exact h.valid
  holds := by rw [hobjects, hentries, hholds]; exact h.holds
  blocked := by rw [hobjects, hentries]; exact h.blocked
  idle := by rw [hobjects, hentries]; exact h.idle
  deferred := by rw [hobjects, hentries, hresets, hclosings]; exact h.deferred
  closings := by rw [hobjects, hentries, hclosings]; exact h.closings
  single := by rw [hclosings]; exact h.single
  resets := by rw [hobjects, hentries, hresets, hclosings]; exact h.resets
  discarded := by rw [hobjects, hentries]; exact h.discarded
  nodup := h.nodup
  called := by rw [hresets, hclosings, hcalls]; exact h.called

/-- A change of an entry that keeps its key and its reset, and what it means for the holds. -/
theorem change (h : m.Kept hand) (k : ℕ) {f : Entry κ → Entry κ} {holds : List (Hold κ)}
    (hf : ∀ e, (f e).key = e.key ∧ (f e).reset = e.reset)
    (hblocked : ∀ e, m.objects[k]? = some e → m.entries e.key = some k →
      e.reset.isSome = true → (f e).holdTimers.length < (f e).retained)
    (hidle : ∀ e, m.objects[k]? = some e → (f e).idle = true →
      m.entries e.key = some k ∧ (f e).retained = 0)
    (hholds : ∀ (i : ℕ) t, holds[i]? = some t → t.pending = true →
      ∃ e, m.objects[t.entry]? = some e ∧ e.key = t.key ∧ m.entries t.key = some t.entry ∧
        i ∈ (if k = t.entry then f e else e).holdTimers) :
    Kept hand { m.modify k f with holds := holds } := by
  have hkey : ∀ j e, (if k = j then f e else e).key = e.key := by
    intro j e
    split
    · exact (hf e).1
    · rfl
  have hthere : ∀ {j : ℕ} {e : Entry κ}, m.objects[j]? = some e →
      (m.modify k f).objects[j]? = some (if k = j then f e else e) :=
    fun he => Lists.getElem?_modify_of_some k he
  have hgone : ∀ {j : ℕ}, (∃ e, m.objects[j]? = some e ∧ m.entries e.key ≠ some j) →
      ∃ e, (m.modify k f).objects[j]? = some e ∧ m.entries e.key ≠ some j := by
    rintro j ⟨e, he, hne⟩
    exact ⟨_, hthere he, by rw [hkey]; exact hne⟩
  refine ⟨?_, ?_, ?_, ?_, ?_, fun c x hx => ?_, h.single, ?_, fun j hj => hgone (h.discarded j hj),
    h.nodup, h.called⟩
  · intro key j hj
    obtain ⟨e, he, rfl⟩ := h.valid key j hj
    exact ⟨_, hthere he, hkey j e⟩
  · intro i t ht hpending
    obtain ⟨e, he, hekey, hentries, hi⟩ := hholds i t ht hpending
    exact ⟨_, hthere he, (hkey _ e).trans hekey, hentries, hi⟩
  · intro j e he hpresent hreset
    rcases Lists.getElem?_modify_cases he with ⟨rfl, a, ha, rfl⟩ | ⟨hne, he⟩
    · rw [(hf a).1] at hpresent
      rw [(hf a).2] at hreset
      exact hblocked a ha hpresent hreset
    · exact h.blocked j e he hpresent hreset
  · intro j e he hpending
    rcases Lists.getElem?_modify_cases he with ⟨rfl, a, ha, rfl⟩ | ⟨hne, he⟩
    · rw [(hf a).1]
      exact hidle a ha hpending
    · exact h.idle j e he hpending
  · intro j e r he hreset
    rcases Lists.getElem?_modify_cases he with ⟨rfl, a, ha, rfl⟩ | ⟨hne, he⟩
    · rw [(hf a).1]
      exact h.deferred j a r ha ((hf a).2 ▸ hreset)
    · exact h.deferred j e r he hreset
  · obtain ⟨hhand, hne⟩ := h.closings c x hx
    exact ⟨hhand, hgone hne⟩
  · intro r p hp
    rcases h.resets r p hp with ⟨e, he, hreset⟩ | ⟨o, ho, hhand, hne, hrest⟩
    · refine .inl ⟨_, hthere he, ?_⟩
      split
      · rw [(hf e).2]
        exact hreset
      · exact hreset
    · exact .inr ⟨o, ho, hhand, hgone hne, hrest⟩

/-- A change of an entry that keeps its key, its holds and its reset. -/
theorem modify (h : m.Kept hand) (k : ℕ) {f : Entry κ → Entry κ}
    (hf : ∀ e, (f e).key = e.key ∧ (f e).holdTimers = e.holdTimers ∧ (f e).reset = e.reset)
    (hblocked : ∀ e, m.objects[k]? = some e → m.entries e.key = some k →
      e.reset.isSome = true → e.holdTimers.length < (f e).retained)
    (hidle : ∀ e, m.objects[k]? = some e → (f e).idle = true →
      m.entries e.key = some k ∧ (f e).retained = 0) : (m.modify k f).Kept hand := by
  refine h.change k (fun e => ⟨(hf e).1, (hf e).2.2⟩) ?_ hidle ?_
  · intro e he hpresent hreset
    rw [(hf e).2.1]
    exact hblocked e he hpresent hreset
  · intro i t ht hpending
    obtain ⟨e, he, hekey, hentries, hi⟩ := h.holds i t ht hpending
    refine ⟨e, he, hekey, hentries, ?_⟩
    split
    · rw [(hf e).2.1]
      exact hi
    · exact hi

variable [DecidableEq κ]

/-- A new entry is empty. -/
theorem entry (h : m.Kept hand) (key : κ) : (m.entry key).1.Kept hand := by
  unfold Manager.entry
  split
  · exact h
  · rename_i hnone
    have hother : ∀ {j : ℕ} {e : Entry κ}, m.entries e.key = some j →
        Function.update m.entries key (some m.objects.length) e.key = some j := by
      intro j e hj
      have hne : e.key ≠ key := by
        rintro rfl
        rw [hnone] at hj
        cases hj
      rw [Function.update_of_ne hne]
      exact hj
    -- an entry that is not in the map does not come into it
    have hgone : ∀ {j : ℕ} {e : Entry κ}, m.objects[j]? = some e → m.entries e.key ≠ some j →
        Function.update m.entries key (some m.objects.length) e.key ≠ some j := by
      intro j e he hj
      by_cases hkey : e.key = key
      · obtain ⟨hlt, -⟩ := List.getElem?_eq_some_iff.mp he
        rw [hkey, Function.update_self]
        exact fun heq => hlt.ne' (Option.some.inj heq)
      · rw [Function.update_of_ne hkey]
        exact hj
    have hthere : ∀ {j : ℕ} {e : Entry κ}, m.objects[j]? = some e →
        (m.objects ++ [({ key := key } : Entry κ)])[j]? = some e :=
      fun he => Lists.getElem?_append_of_some he
    have hgone' : ∀ {j : ℕ}, (∃ e, m.objects[j]? = some e ∧ m.entries e.key ≠ some j) →
        ∃ e, (m.objects ++ [({ key := key } : Entry κ)])[j]? = some e ∧
          Function.update m.entries key (some m.objects.length) e.key ≠ some j :=
      fun ⟨e, he, hne⟩ => ⟨e, hthere he, hgone he hne⟩
    refine ⟨?_, ?_, ?_, ?_, ?_, fun c x hx => ?_, h.single, ?_,
      fun j hj => hgone' (h.discarded j hj), h.nodup, h.called⟩
    · intro key' j hj
      dsimp only at hj
      by_cases hkey : key' = key
      · subst hkey
        rw [Function.update_self] at hj
        obtain rfl := Option.some.inj hj
        exact ⟨_, List.getElem?_concat_length, rfl⟩
      · rw [Function.update_of_ne hkey] at hj
        obtain ⟨e, he, rfl⟩ := h.valid key' j hj
        exact ⟨e, hthere he, rfl⟩
    · intro i t ht hpending
      obtain ⟨e, he, hekey, hentries, hi⟩ := h.holds i t ht hpending
      refine ⟨e, hthere he, hekey, ?_, hi⟩
      rw [← hekey] at hentries ⊢
      exact hother hentries
    · intro j e he hpresent hreset
      rcases Lists.getElem?_append_cases he with ⟨-, rfl⟩ | hold
      · cases hreset
      · by_contra hblocked
        refine hblocked (h.blocked j e hold ?_ hreset)
        by_contra hne
        exact hgone hold hne hpresent
    · intro j e he hidle
      rcases Lists.getElem?_append_cases he with ⟨-, rfl⟩ | hold
      · cases hidle
      · obtain ⟨hpresent, hzero⟩ := h.idle j e hold hidle
        exact ⟨hother hpresent, hzero⟩
    · intro j e r he hreset
      rcases Lists.getElem?_append_cases he with ⟨-, rfl⟩ | hold
      · cases hreset
      · obtain ⟨hp, hpresent⟩ := h.deferred j e r hold hreset
        exact ⟨hp, hpresent.imp hother id⟩
    · obtain ⟨hhand, hne⟩ := h.closings c x hx
      exact ⟨hhand, hgone' hne⟩
    · intro r p hp
      rcases h.resets r p hp with ⟨e, he, hreset⟩ | ⟨o, ho, hhand, hne, hrest⟩
      · exact .inl ⟨e, hthere he, hreset⟩
      · exact .inr ⟨o, ho, hhand, hgone' hne, hrest⟩

/-- What the new index of `entry` is. -/
theorem entry_spec (h : m.Kept hand) (key : κ) :
    ∃ e, (m.entry key).1.objects[(m.entry key).2]? = some e ∧ e.key = key ∧
      (m.entry key).1.entries key = some (m.entry key).2 := by
  unfold Manager.entry
  split
  · rename_i k hk
    obtain ⟨e, he, rfl⟩ := h.valid key k hk
    exact ⟨e, he, rfl, hk⟩
  · exact ⟨_, List.getElem?_concat_length, rfl, Function.update_self ..⟩

/-- A present entry is discarded: it is in hand. -/
theorem discard (h : m.Kept hand) {e : Entry κ} (he : m.objects[k]? = some e)
    (hpresent : m.entries e.key = some k) : (m.discard k).Kept (k :: hand) := by
  have hthere : ∀ {j : ℕ} {a : Entry κ}, m.objects[j]? = some a → ∃ b,
      (m.discard k).objects[j]? = some b ∧ b.key = a.key ∧ b.reset = a.reset ∧
        (j ≠ k → b = a) := by
    intro j a ha
    rw [Manager.discard, he]
    refine ⟨_, Lists.getElem?_modify_of_some k ha, ?_⟩
    split
    · rename_i hk
      exact ⟨rfl, rfl, fun hne => absurd hk.symm hne⟩
    · exact ⟨rfl, rfl, fun _ => rfl⟩
  have hback : ∀ {j : ℕ} {b : Entry κ}, (m.discard k).objects[j]? = some b →
      (j = k ∧ b.idle = false ∧ b.key = e.key) ∨ (j ≠ k ∧ m.objects[j]? = some b) := by
    intro j b hb
    rw [Manager.discard, he] at hb
    obtain ⟨rfl, rfl⟩ | hold := Lists.getElem?_modify_known he hb
    · exact .inl ⟨rfl, rfl, rfl⟩
    · exact .inr hold
  have hentries : (m.discard k).entries = Function.update m.entries e.key none := by
    rw [Manager.discard, he]
  have hother : ∀ {key : κ} {j : ℕ}, m.entries key = some j → j ≠ k →
      (m.discard k).entries key = some j := by
    intro key j hj hne
    rw [hentries, Function.update_of_ne]
    · exact hj
    · rintro rfl
      exact hne (Option.some.inj (hj.symm.trans hpresent))
  have hthen : ∀ {key : κ} {j : ℕ}, (m.discard k).entries key = some j →
      key ≠ e.key ∧ m.entries key = some j := by
    intro key j hj
    rw [hentries] at hj
    by_cases hkey : key = e.key
    · rw [hkey, Function.update_self] at hj
      cases hj
    · rw [Function.update_of_ne hkey] at hj
      exact ⟨hkey, hj⟩
  have hgone : ∀ {j : ℕ}, (∃ a, m.objects[j]? = some a ∧ m.entries a.key ≠ some j) →
      j ≠ k ∧ ∃ b, (m.discard k).objects[j]? = some b ∧ (m.discard k).entries b.key ≠ some j := by
    rintro j ⟨a, ha, hne⟩
    obtain ⟨b, hb, hkey, -⟩ := hthere ha
    refine ⟨?_, b, hb, fun hj => hne (hkey ▸ (hthen hj).2)⟩
    rintro rfl
    obtain rfl := Option.some.inj (he.symm.trans ha)
    exact hne hpresent
  have hclosings : (m.discard k).closings = m.closings := by rw [Manager.discard, he]; rfl
  have hresets : (m.discard k).resets = m.resets := by rw [Manager.discard, he]; rfl
  have hcalls : (m.discard k).resetCalls = m.resetCalls := by rw [Manager.discard, he]; rfl
  refine ⟨?_, ?_, ?_, ?_, ?_, ?_, hclosings ▸ h.single, ?_, ?_, ?_, ?_⟩
  · intro key j hj
    obtain ⟨a, ha, hkey⟩ := h.valid key j (hthen hj).2
    obtain ⟨b, hb, hbkey, -⟩ := hthere ha
    exact ⟨b, hb, hbkey.trans hkey⟩
  · intro i t ht hpending
    have hholds : (m.discard k).holds = cancelHolds m.holds e.holdTimers := by
      rw [Manager.discard, he]
    rw [hholds, cancelHolds, List.getElem?_mapIdx] at ht
    obtain ⟨t, hold, rfl⟩ := Option.map_eq_some_iff.mp ht
    split at hpending
    · cases hpending
    · rename_i hi
      rw [if_neg hi]
      obtain ⟨a, ha, hkey, hthis, hmem⟩ := h.holds i t hold hpending
      -- the timers of the entry that is discarded are no longer pending
      have hne : t.entry ≠ k := by
        intro heq
        rw [heq, he] at ha
        obtain rfl := Option.some.inj ha
        exact hi hmem
      obtain ⟨b, hb, -, -, hsame⟩ := hthere ha
      obtain rfl := hsame hne
      exact ⟨b, hb, hkey, hother hthis hne, hmem⟩
  · intro j b hb hj hreset
    obtain ⟨hkey, hj⟩ := hthen hj
    rcases hback hb with ⟨-, -, heq⟩ | ⟨-, hb⟩
    · exact absurd heq hkey
    · exact h.blocked j b hb hj hreset
  · intro j b hb hidle
    rcases hback hb with ⟨-, hoff, -⟩ | ⟨hne, hb⟩
    · rw [hoff] at hidle
      cases hidle
    · obtain ⟨hj, hzero⟩ := h.idle j b hb hidle
      exact ⟨hother hj hne, hzero⟩
  · intro j b r hb hreset
    rw [hresets, hclosings]
    by_cases hne : j = k
    · subst hne
      obtain ⟨a, ha⟩ : ∃ a, m.objects[j]? = some a := ⟨e, he⟩
      obtain ⟨b', hb', -, hsame, -⟩ := hthere ha
      obtain rfl := Option.some.inj (hb.symm.trans hb')
      exact ⟨(h.deferred j a r ha (hsame ▸ hreset)).1, .inr (.inl List.mem_cons_self)⟩
    · have hb : m.objects[j]? = some b := ((hback hb).resolve_left fun hk => hne hk.1).2
      obtain ⟨hp, hwhere⟩ := h.deferred j b r hb hreset
      refine ⟨hp, ?_⟩
      rcases hwhere with hj | hj | hj
      · exact .inl (hother hj hne)
      · exact .inr (.inl (List.mem_cons_of_mem _ hj))
      · exact .inr (.inr hj)
  · intro c x hx
    rw [hclosings] at hx
    obtain ⟨hhand, hne⟩ := h.closings c x hx
    obtain ⟨hk, hne⟩ := hgone hne
    exact ⟨List.not_mem_cons_of_ne_of_not_mem hk hhand, hne⟩
  · intro r p hp
    rw [hresets] at hp
    rcases h.resets r p hp with ⟨a, ha, hreset⟩ | ⟨o, ho, hhand, hne, hrest⟩
    · obtain ⟨b, hb, -, hsame, -⟩ := hthere ha
      exact .inl ⟨b, hb, hsame.trans hreset⟩
    · obtain ⟨hk, hne⟩ := hgone hne
      rw [hclosings]
      exact .inr ⟨o, ho, List.not_mem_cons_of_ne_of_not_mem hk hhand, hne, hrest⟩
  · intro j hj
    rcases List.mem_cons.mp hj with rfl | hj
    · obtain ⟨b, hb, hkey, -⟩ := hthere he
      refine ⟨b, hb, ?_⟩
      rw [hentries, hkey, Function.update_self]
      simp
    · exact (hgone (h.discarded j hj)).2
  · refine List.nodup_cons.mpr ⟨fun hk => ?_, h.nodup⟩
    exact (hgone (h.discarded k hk)).1 rfl
  · rw [hcalls, hclosings, hresets]
    exact h.called

/-! ### An entry's reset set -/

omit [DecidableEq κ] in
theorem there_setReset (k : ℕ) (x : Option ℕ) {j : ℕ} {a : Entry κ} (ha : m.objects[j]? = some a) :
    ∃ b, (m.modify k fun e => { e with reset := x }).objects[j]? = some b ∧ b.key = a.key ∧
      b.holdTimers = a.holdTimers ∧ (j ≠ k → b = a) := by
  refine ⟨_, Lists.getElem?_modify_of_some k ha, ?_⟩
  split
  · rename_i hjk
    exact ⟨rfl, rfl, fun hne => absurd hjk.symm hne⟩
  · exact ⟨rfl, rfl, fun _ => rfl⟩

omit [DecidableEq κ] in
theorem back_setReset {e : Entry κ} (he : m.objects[k]? = some e) {x : Option ℕ} {j : ℕ}
    {b : Entry κ} (hb : (m.modify k fun e => { e with reset := x }).objects[j]? = some b) :
    (j = k ∧ b = { e with reset := x }) ∨ (j ≠ k ∧ m.objects[j]? = some b) := by
  obtain ⟨rfl, rfl⟩ | hold := Lists.getElem?_modify_known he hb
  · exact .inl ⟨rfl, rfl⟩
  · exact .inr hold

omit [DecidableEq κ] in
/-- An entry that is gone stays gone. -/
theorem gone_setReset (k : ℕ) (x : Option ℕ) {j : ℕ}
    (hgone : ∃ a, m.objects[j]? = some a ∧ m.entries a.key ≠ some j) :
    ∃ b, (m.modify k fun e => { e with reset := x }).objects[j]? = some b ∧
      m.entries b.key ≠ some j := by
  obtain ⟨a, ha, hne⟩ := hgone
  obtain ⟨b, hb, hkey, -⟩ := there_setReset k x ha
  exact ⟨b, hb, by rw [hkey]; exact hne⟩

omit [DecidableEq κ] in
/-- The close of an entry in hand begins. -/
theorem closeEntry (h : m.Kept (k :: hand)) : (m.closeEntry k).Kept hand := by
  obtain ⟨hk, hnodup⟩ := List.nodup_cons.mp h.nodup
  refine ⟨h.valid, h.holds, h.blocked, h.idle, ?_, ?_, ?_, ?_,
    fun j hj => h.discarded j (List.mem_cons_of_mem _ hj), hnodup, ?_⟩
  · intro j e r he hreset
    obtain ⟨hp, hwhere⟩ := h.deferred j e r he hreset
    refine ⟨hp, ?_⟩
    rcases hwhere with hj | hj | ⟨c, x, hx, hrest⟩
    · exact .inl hj
    · rcases List.mem_cons.mp hj with rfl | hj
      · exact .inr (.inr ⟨_, _, List.getElem?_concat_length, rfl, rfl⟩)
      · exact .inr (.inl hj)
    · exact .inr (.inr ⟨c, x, Lists.getElem?_append_of_some hx, hrest⟩)
  · intro c x hx
    rcases Lists.getElem?_append_cases hx with ⟨-, rfl⟩ | hold
    · exact ⟨hk, h.discarded k List.mem_cons_self⟩
    · obtain ⟨hhand, hne⟩ := h.closings c x hold
      exact ⟨List.not_mem_of_not_mem_cons hhand, hne⟩
  · intro c d x y hx hy hsame
    -- no close of an entry in hand had begun
    have hfresh : ∀ {d : ℕ} {y : Closing}, m.closings[d]? = some y → y.entry ≠ k :=
      fun hy => List.ne_of_not_mem_cons (h.closings _ _ hy).1
    rcases Lists.getElem?_append_cases hx with ⟨hc, rfl⟩ | hxold
    · rcases Lists.getElem?_append_cases hy with ⟨hd, rfl⟩ | hyold
      · rw [hc, hd]
      · exact absurd hsame.symm (hfresh hyold)
    · rcases Lists.getElem?_append_cases hy with ⟨hd, rfl⟩ | hyold
      · exact absurd hsame (hfresh hxold)
      · exact h.single c d x y hxold hyold hsame
  · intro r p hp
    rcases h.resets r p hp with hwaits | ⟨o, ho, hhand, hne, hall, hsome⟩
    · exact .inl hwaits
    · have hpk : p.entry ≠ k := List.ne_of_not_mem_cons hhand
      have hhand : p.entry ∉ hand := List.not_mem_of_not_mem_cons hhand
      refine .inr ⟨o, ho, hhand, hne, ?_, ?_⟩
      · intro c x hx hxp
        rcases Lists.getElem?_append_cases hx with ⟨-, rfl⟩ | hold
        · exact absurd hxp.symm hpk
        · exact hall c x hold hxp
      · exact hsome.imp_left fun ⟨c, x, hx, hxp⟩ => ⟨c, x, Lists.getElem?_append_of_some hx, hxp⟩
  · intro p hp
    obtain ⟨hc, hr⟩ := h.called p hp
    refine ⟨fun c hpc => ?_, hr⟩
    exact (hc c hpc).trans (by simp [Manager.closeEntry])

omit [DecidableEq κ] in
/-- A discarded entry's reset settles, and its close ends if it has one. -/
theorem settles {hand' : List ℕ} {cs : List Closing} {o : Outcome} (h : m.Kept hand')
    (hhand' : ∀ j ∈ hand', j = k ∨ j ∈ hand) (hsub : ∀ j ∈ hand, j ∈ hand')
    (hnodup : hand.Nodup) (hk : k ∉ hand)
    (hgone : ∃ e, m.objects[k]? = some e ∧ m.entries e.key ≠ some k)
    (hcs : ∀ (c : ℕ) x, cs[c]? = some x → ∃ y, m.closings[c]? = some y ∧ y.entry = x.entry ∧
      (x.entry ≠ k → y = x) ∧ (x.entry = k → x.outcome = some o))
    (hsame : ∀ (c : ℕ) y, m.closings[c]? = some y → ∃ x, cs[c]? = some x ∧ x.entry = y.entry ∧
      (y.entry ≠ k → x = y))
    (hsome : (∃ (c : ℕ) (x : Closing), cs[c]? = some x ∧ x.entry = k) ∨ o = .resolved)
    (hwaits : ∀ (r : ℕ) p, m.resets[r]? = some p → p.entry = k →
      ∃ e, m.objects[k]? = some e ∧ e.reset = some r) :
    ({ m with closings := cs }.settleReset k o).Kept hand := by
  have hlength : m.closings.length ≤ cs.length := by
    by_contra hlt
    obtain ⟨x, hx, -⟩ := hsame cs.length m.closings[cs.length] (List.getElem?_eq_getElem (by omega))
    rw [List.getElem?_eq_none (le_refl _)] at hx
    cases hx
  have hclosing : ∀ (c : ℕ) x, cs[c]? = some x →
      x.entry ∉ hand ∧ ∃ e, m.objects[x.entry]? = some e ∧ m.entries e.key ≠ some x.entry := by
    intro c x hx
    obtain ⟨y, hy, hyx, -⟩ := hcs c x hx
    obtain ⟨hnot, hne⟩ := h.closings c y hy
    rw [hyx] at hnot hne
    exact ⟨fun hmem => hnot (hsub _ hmem), hne⟩
  have hsingle : ∀ (c d : ℕ) x y, cs[c]? = some x → cs[d]? = some y → x.entry = y.entry → c = d := by
    intro c d x y hx hy hxy
    obtain ⟨x', hx', hxe, -⟩ := hcs c x hx
    obtain ⟨y', hy', hye, -⟩ := hcs d y hy
    exact h.single c d x' y' hx' hy' (hxe.trans (hxy.trans hye.symm))
  have hsettled : ∀ {p : Reset} {o' : Outcome}, p.entry ≠ k →
      (∀ (c : ℕ) x, m.closings[c]? = some x → x.entry = p.entry → x.outcome = some o') →
      ∀ (c : ℕ) x, cs[c]? = some x → x.entry = p.entry → x.outcome = some o' := by
    intro p o' hpk hall c x hx hxp
    obtain ⟨y, hy, -, hyx, -⟩ := hcs c x hx
    obtain rfl := hyx (hxp ▸ hpk)
    exact hall c y hy hxp
  have hwhere : ∀ {j : ℕ} {present : Prop}, j ≠ k →
      (present ∨ j ∈ hand' ∨
        ∃ (c : ℕ) (x : Closing), m.closings[c]? = some x ∧ x.entry = j ∧ x.outcome = none) →
      present ∨ j ∈ hand ∨
        ∃ (c : ℕ) (x : Closing), cs[c]? = some x ∧ x.entry = j ∧ x.outcome = none := by
    rintro j present hj (hp | hmem | ⟨c, x, hx, hxj, hopen⟩)
    · exact .inl hp
    · exact .inr (.inl ((hhand' j hmem).resolve_left hj))
    · obtain ⟨y, hy, -, hyx⟩ := hsame c x hx
      obtain rfl := hyx (hxj ▸ hj)
      exact .inr (.inr ⟨c, y, hy, hxj, hopen⟩)
  have hexists : ∀ {p : Reset} {o' : Outcome}, p.entry ≠ k →
      ((∃ (c : ℕ) (x : Closing), m.closings[c]? = some x ∧ x.entry = p.entry) ∨ o' = .resolved) →
      (∃ (c : ℕ) (x : Closing), cs[c]? = some x ∧ x.entry = p.entry) ∨ o' = .resolved := by
    rintro p o' hpk (⟨c, x, hx, hxp⟩ | hres)
    · obtain ⟨y, hy, hyx, -⟩ := hsame c x hx
      exact .inl ⟨c, y, hy, hyx.trans hxp⟩
    · exact .inr hres
  obtain ⟨e, he, hne⟩ := hgone
  cases hreset : e.reset with
  | none =>
    -- there is nothing to settle
    have hk : ∀ {j : ℕ} {a : Entry κ} {r : ℕ}, m.objects[j]? = some a → a.reset = some r →
        j ≠ k := by
      rintro j a r ha har rfl
      rw [he] at ha
      obtain rfl := Option.some.inj ha
      rw [hreset] at har
      cases har
    have hnone : { m with closings := cs }.settleReset k o = { m with closings := cs } := by
      simp [Manager.settleReset, he, hreset]
    rw [hnone]
    refine ⟨h.valid, h.holds, h.blocked, h.idle, ?_, hclosing, hsingle, ?_,
      fun j hj => h.discarded j (hsub j hj), hnodup, ?_⟩
    · intro j a r ha har
      obtain ⟨hp, hw⟩ := h.deferred j a r ha har
      exact ⟨hp, hwhere (hk ha har) hw⟩
    · intro r p hp
      rcases h.resets r p hp with hwaiting | ⟨o', ho, hhand, hne, hall, hex⟩
      · exact .inl hwaiting
      · have hpk : p.entry ≠ k := by
          intro heq
          obtain ⟨a, ha, har⟩ := hwaits r p hp heq
          exact hk ha har rfl
        exact .inr ⟨o', ho, fun hmem => hhand (hsub _ hmem), hne, hsettled hpk hall,
          hexists hpk hex⟩
    · intro p hp
      exact ⟨fun c hc => lt_of_lt_of_le ((h.called p hp).1 c hc) hlength, (h.called p hp).2⟩
  | some r =>
    obtain ⟨⟨p, hp, hpk, hempty⟩, -⟩ := h.deferred k e r he hreset
    have hsettle : { m with closings := cs }.settleReset k o =
        { m.modify k fun e => { e with reset := none } with
          closings := cs
          resets := m.resets.modify r fun p => { p with settlements := p.settlements ++ [o] } } := by
      simp [Manager.settleReset, he, hreset, Manager.modify]
    rw [hsettle]
    refine ⟨?_, ?_, ?_, ?_, ?_, ?_, hsingle, ?_,
      fun j hj => gone_setReset k none (h.discarded j (hsub j hj)), hnodup, ?_⟩
    · intro key j hj
      obtain ⟨a, ha, hkey⟩ := h.valid key j hj
      obtain ⟨b, hb, hbkey, -⟩ := there_setReset k none ha
      exact ⟨b, hb, hbkey.trans hkey⟩
    · intro i t ht hpending
      obtain ⟨a, ha, hkey, hthis, hmem⟩ := h.holds i t ht hpending
      obtain ⟨b, hb, hbkey, hbtimers, -⟩ := there_setReset k none ha
      exact ⟨b, hb, hbkey.trans hkey, hthis, hbtimers ▸ hmem⟩
    · intro j b hb hj hbreset
      rcases back_setReset he hb with ⟨-, rfl⟩ | ⟨-, hb⟩
      · cases hbreset
      · exact h.blocked j b hb hj hbreset
    · intro j b hb hidle
      rcases back_setReset he hb with ⟨rfl, rfl⟩ | ⟨-, hb⟩
      · exact h.idle j e he hidle
      · exact h.idle j b hb hidle
    · intro j b q hb hbreset
      rcases back_setReset he hb with ⟨-, rfl⟩ | ⟨hjk, hb⟩
      · cases hbreset
      · obtain ⟨⟨p', hp', hpj, hnil⟩, hw⟩ := h.deferred j b q hb hbreset
        refine ⟨⟨p', ?_, hpj, hnil⟩, hwhere hjk hw⟩
        rw [List.getElem?_modify_ne]
        · exact hp'
        · rintro rfl
          obtain rfl := Option.some.inj (hp.symm.trans hp')
          exact hjk (hpj.symm.trans hpk)
    · intro c x hx
      obtain ⟨hnot, hx⟩ := hclosing c x hx
      exact ⟨hnot, gone_setReset k none hx⟩
    · intro q p' hp'
      rcases Lists.getElem?_modify_cases hp' with ⟨rfl, a, ha, rfl⟩ | ⟨hqr, hold⟩
      · -- the promise of the entry itself
        obtain rfl := Option.some.inj (hp.symm.trans ha)
        refine .inr ⟨o, by rw [hempty]; rfl, hpk ▸ hk,
          gone_setReset k none (hpk ▸ ⟨e, he, hne⟩), ?_, ?_⟩
        · intro c x hx hxp
          obtain ⟨-, -, -, -, hxo⟩ := hcs c x hx
          exact hxo (hxp.trans hpk)
        · exact hsome.imp_left fun ⟨c, x, hx, hxk⟩ => ⟨c, x, hx, hxk.trans hpk.symm⟩
      · have hpk' : p'.entry ≠ k := by
          intro heq
          obtain ⟨a, ha, har⟩ := hwaits q p' hold heq
          obtain rfl := Option.some.inj (he.symm.trans ha)
          exact hqr (Option.some.inj (har.symm.trans hreset))
        rcases h.resets q p' hold with ⟨a, ha, har⟩ | ⟨o', ho, hhand, hne', hall, hex⟩
        · obtain ⟨b, hb, -, -, hba⟩ := there_setReset k none ha
          exact .inl ⟨b, hb, by rw [hba hpk']; exact har⟩
        · exact .inr ⟨o', ho, fun hmem => hhand (hsub _ hmem), gone_setReset k none hne',
            hsettled hpk' hall, hexists hpk' hex⟩
    · intro p' hp'
      refine ⟨fun c hc => lt_of_lt_of_le ((h.called p' hp').1 c hc) hlength, fun q hq => ?_⟩
      rw [List.length_modify]
      exact (h.called p' hp').2 q hq

omit [DecidableEq κ] in
/-- What was deferred on an entry in hand settles with it. -/
theorem settleReset (h : m.Kept (k :: hand)) : (m.settleReset k .resolved).Kept hand := by
  obtain ⟨hk, hnodup⟩ := List.nodup_cons.mp h.nodup
  have hfresh : ∀ {c : ℕ} {x : Closing}, m.closings[c]? = some x → x.entry ≠ k :=
    fun hx => List.ne_of_not_mem_cons (h.closings _ _ hx).1
  refine @settles _ m hand k (k :: hand) m.closings .resolved h
    (fun j hj => List.mem_cons.mp hj) (fun j hj => List.mem_cons_of_mem _ hj) hnodup hk
    (h.discarded k List.mem_cons_self) ?_ (fun c y hy => ⟨y, hy, rfl, fun _ => rfl⟩)
    (.inr rfl) ?_
  · intro c x hx
    exact ⟨x, hx, rfl, fun _ => rfl, fun hxk => absurd hxk (hfresh hx)⟩
  · intro r p hp hpk
    rcases h.resets r p hp with hwaits | ⟨o, -, hhand, -⟩
    · exact hpk ▸ hwaits
    · exact absurd hpk (List.ne_of_not_mem_cons hhand)

omit [DecidableEq κ] in
theorem closeEnds (h : m.Kept hand) {c : ℕ} {x : Closing} (hx : m.closings[c]? = some x)
    (hopen : x.outcome = none) (outcome : Outcome) : (m.closeEnds c x outcome).Kept hand := by
  obtain ⟨hk, hgone⟩ := h.closings c x hx
  have hends : (m.closings.modify c fun x => { x with outcome := some outcome })[c]? =
      some { x with outcome := some outcome } := by
    rw [List.getElem?_modify_eq, hx]
    rfl
  refine @settles _ m hand x.entry hand _ outcome h (fun j hj => .inr hj) (fun j hj => hj) h.nodup
    hk hgone ?_ ?_ (.inl ⟨c, _, hends, rfl⟩) ?_
  · intro d y hy
    obtain ⟨rfl, rfl⟩ | ⟨hne, hold⟩ := Lists.getElem?_modify_known hx hy
    · exact ⟨x, hx, rfl, fun hne => absurd rfl hne, fun _ => rfl⟩
    · exact ⟨y, hold, rfl, fun _ => rfl, fun hsame => absurd (h.single d c y x hold hx hsame) hne⟩
  · intro d y hy
    refine ⟨_, Lists.getElem?_modify_of_some c hy, ?_⟩
    split
    · rename_i hcd
      subst hcd
      obtain rfl := Option.some.inj (hx.symm.trans hy)
      exact ⟨rfl, fun hne => absurd rfl hne⟩
    · exact ⟨rfl, fun _ => rfl⟩
  · intro r p hp hpk
    rcases h.resets r p hp with hwaits | ⟨o, -, -, -, hall, -⟩
    · exact hpk ▸ hwaits
    · have hsome := hall c x hx hpk.symm
      rw [hopen] at hsome
      cases hsome

/-! ### The operations -/

omit [DecidableEq κ] in
/-- In which order entries are in hand does not matter. -/
theorem perm {hand' : List ℕ} (h : m.Kept hand) (hperm : hand.Perm hand') : m.Kept hand' where
  valid := h.valid
  holds := h.holds
  blocked := h.blocked
  idle := h.idle
  deferred k e r he hreset :=
    (h.deferred k e r he hreset).imp_right fun hw => hw.imp_right fun hw =>
      hw.imp_left fun hmem => hperm.subset hmem
  closings c x hx := (h.closings c x hx).imp_left fun hne hmem => hne (hperm.symm.subset hmem)
  single := h.single
  resets r p hp := (h.resets r p hp).imp_right fun ⟨o, ho, hhand, hrest⟩ =>
    ⟨o, ho, fun hmem => hhand (hperm.symm.subset hmem), hrest⟩
  discarded k hk := h.discarded k (hperm.symm.subset hk)
  nodup := hperm.nodup_iff.mp h.nodup
  called := h.called

theorem close (h : m.Kept []) (key : κ) : (m.close key).Kept [] := by
  unfold Manager.close
  split
  · rename_i k hk
    obtain ⟨e, he, rfl⟩ := h.valid key k hk
    exact (h.discard he hk).closeEntry
  · exact h

theorem autoClose (h : m.Kept []) (key : κ) : (m.autoClose key).Kept [] := by
  unfold Manager.autoClose
  split
  · rename_i k hk
    obtain ⟨e, he, rfl⟩ := h.valid key k hk
    apply closeEntry
    exact (h.discard he hk).of_eq rfl rfl rfl rfl rfl rfl
  · exact h

theorem remove (h : m.Kept []) (key : κ) : (m.remove key).Kept [] := by
  unfold Manager.remove
  split
  · rename_i k hk
    obtain ⟨e, he, rfl⟩ := h.valid key k hk
    exact (h.discard he hk).settleReset
  · exact h

/-- An entry in the map stays there when another one is discarded. -/
theorem present_discard {j : ℕ} (hj : m.present j = true) (hk : m.present k = true)
    (hne : j ≠ k) : (m.discard k).present j = true := by
  obtain ⟨e, he, hj⟩ := present_iff.mp hj
  obtain ⟨a, ha, hk⟩ := present_iff.mp hk
  refine present_iff.mpr ⟨e, ?_, ?_⟩
  · rw [Manager.discard, ha]
    exact (List.getElem?_modify_ne _ _ hne.symm).trans he
  · rw [Manager.discard, ha]
    refine (Function.update_of_ne ?_ ..).trans hj
    intro hkey
    rw [hkey, hk] at hj
    exact hne (Option.some.inj hj).symm

/-- Several entries are discarded. -/
theorem discards {ks : List ℕ} (h : m.Kept hand) (hnodup : ks.Nodup)
    (hpresent : ∀ k ∈ ks, m.present k = true) :
    (ks.foldl Manager.discard m).Kept (ks ++ hand) := by
  induction ks generalizing m hand with
  | nil => exact h
  | cons k ks ih =>
    obtain ⟨hk, hrest⟩ := List.nodup_cons.mp hnodup
    have hhere : m.present k = true := hpresent k List.mem_cons_self
    obtain ⟨e, he, hek⟩ := present_iff.mp hhere
    have hstay : ∀ j ∈ ks, (m.discard k).present j = true := by
      intro j hj
      refine present_discard (hpresent j (List.mem_cons_of_mem k hj)) hhere ?_
      rintro rfl
      exact hk hj
    exact (ih (h.discard he hek) hrest hstay).perm List.perm_middle

omit [DecidableEq κ] in
/-- The closes of entries in hand begin. -/
theorem closeEntries {ks : List ℕ} (h : m.Kept (ks ++ hand)) :
    (ks.foldl Manager.closeEntry m).Kept hand := by
  induction ks generalizing m with
  | nil => exact h
  | cons k ks ih => exact ih (closeEntry h)

theorem closeAll (h : m.Kept []) : m.closeAll.Kept [] := by
  apply closeEntries
  rw [List.append_nil]
  have hnext : Kept [] { m with generation := m.generation + 1 } :=
    h.of_eq rfl rfl rfl rfl rfl rfl
  have hdiscarded := hnext.discards (List.nodup_range.filter m.present :
    m.presentEntries.Nodup) fun k hk => (List.mem_filter.mp hk).2
  rw [List.append_nil] at hdiscarded
  exact hdiscarded

theorem retain (h : m.Kept hand) (key : κ) : (m.retain key).Kept hand := by
  refine (h.entry key).modify _ (fun e => ⟨rfl, rfl, rfl⟩) ?_ (fun e _ hidle => by cases hidle)
  intro e he hpresent hreset
  exact ((h.entry key).blocked _ e he hpresent hreset).trans (Nat.lt_succ_self _)

omit [DecidableEq κ] in
/-- Only the count of an entry changes that is not in the map: its window does not run. -/
theorem recount (h : m.Kept hand) {e : Entry κ} (he : m.objects[k]? = some e)
    (hgone : m.entries e.key ≠ some k) (n : ℕ) :
    (m.modify k fun e => { e with retained := n }).Kept hand := by
  refine h.modify k (fun e => ⟨rfl, rfl, rfl⟩) ?_ ?_
  · intro a ha hpresent _
    obtain rfl := Option.some.inj (he.symm.trans ha)
    exact absurd hpresent hgone
  · intro a ha hidle
    obtain rfl := Option.some.inj (he.symm.trans ha)
    exact absurd (h.idle k e he hidle).1 hgone

/-- The count plays no part in a close. -/
theorem autoClose_recount {e : Entry κ} (he : m.objects[k]? = some e)
    (hpresent : m.entries e.key = some k) (n : ℕ) :
    (m.modify k fun e => { e with retained := n }).autoClose e.key =
      (m.autoClose e.key).modify k fun e => { e with retained := n } := by
  simp [Manager.autoClose, Manager.discard, Manager.closeEntry, Manager.modify, hpresent, he,
    List.modify_modify_eq, Function.comp_def]

theorem release (h : m.Kept []) (key : κ) : (m.release key).Kept [] := by
  unfold Manager.release
  split
  · rename_i k hk
    obtain ⟨e, he, rfl⟩ := h.valid key k hk
    simp only [he]
    split
    · exact h
    · rename_i hretained
      -- the modification by the value at hand, as the one by a function of the entry
      have hvalue : (m.modify k fun e => { e with retained := e.retained - 1 }) =
          m.modify k fun a => { a with retained := e.retained - 1 } := by
        unfold Manager.modify
        congr 1
        exact Lists.modify_congr he rfl
      split
      · rw [hvalue, autoClose_recount he hk]
        obtain ⟨a, ha, hne⟩ : ∃ a, (m.autoClose e.key).objects[k]? = some a ∧
            (m.autoClose e.key).entries a.key ≠ some k := by
          rw [Manager.autoClose, hk]
          exact (h.discard he hk).discarded k List.mem_cons_self
        exact (h.autoClose e.key).recount ha hne _
      · rename_i hblocked
        have hreleased : (m.modify k fun a => { a with retained := e.retained - 1 }).Kept [] := by
          refine h.modify k (fun e => ⟨rfl, rfl, rfl⟩) ?_ ?_
          · intro a ha _ hreset
            obtain rfl := Option.some.inj (he.symm.trans ha)
            rw [hreset, Bool.true_and, decide_eq_true_eq] at hblocked
            exact Nat.lt_of_not_le hblocked
          · intro a ha hidle
            obtain rfl := Option.some.inj (he.symm.trans ha)
            exact absurd (h.idle k e he hidle).2 hretained
        rw [hvalue]
        split
        · rename_i hzero
          refine hreleased.modify k (fun e => ⟨rfl, rfl, rfl⟩) ?_ ?_
          · exact hreleased.blocked k
          · intro a ha _
            rw [Manager.modify, List.getElem?_modify_eq, he] at ha
            obtain rfl := Option.some.inj ha
            exact ⟨hk, hzero⟩
        · exact hreleased
  · exact h

theorem hold (h : m.Kept []) (key : κ) : (m.hold key).Kept [] := by
  obtain ⟨e, he, rfl, hpresent⟩ := h.entry_spec key
  have hentry := h.entry e.key
  unfold Manager.hold
  generalize m.entry e.key = there at *
  obtain ⟨m, k⟩ := there
  dsimp only at he hpresent hentry ⊢
  have hretain : m.retain e.key =
      m.modify k fun e => { e with retained := e.retained + 1, idle := false } := by
    simp only [Manager.retain, Manager.entry, hpresent]
  have hkept : (m.retain e.key).Kept [] := hentry.retain e.key
  rw [hretain] at hkept ⊢
  have hthis : (m.modify k fun e => { e with retained := e.retained + 1, idle := false }).objects[k]? =
      some { e with retained := e.retained + 1, idle := false } :=
    (List.getElem?_modify_eq ..).trans (congrArg (Option.map _) he)
  refine hkept.change k (fun e => ⟨rfl, rfl⟩) ?_ ?_ ?_
  · intro a ha _ hreset
    obtain rfl := Option.some.inj (hthis.symm.trans ha)
    rw [List.length_append]
    exact Nat.succ_lt_succ (hentry.blocked k e he hpresent hreset)
  · intro a ha hidle
    obtain rfl := Option.some.inj (hthis.symm.trans ha)
    cases hidle
  · intro i t ht hpending
    rcases Lists.getElem?_append_cases ht with ⟨rfl, rfl⟩ | hold
    · refine ⟨_, hthis, rfl, hpresent, ?_⟩
      rw [if_pos rfl]
      exact List.mem_append_right _ (List.mem_singleton.mpr rfl)
    · obtain ⟨a, ha, hkey, hentries, hmem⟩ := hkept.holds i t hold hpending
      refine ⟨a, ha, hkey, hentries, ?_⟩
      split
      · exact List.mem_append_left _ hmem
      · exact hmem

theorem holdExpires (h : m.Kept []) {i : ℕ} {t : Hold κ} (ht : m.holds[i]? = some t) :
    (m.holdExpires i t).Kept [] := by
  apply release
  refine h.change t.entry (fun e => ⟨rfl, rfl⟩) ?_ (h.idle t.entry) ?_
  · intro e he hpresent hreset
    exact (List.length_erase_le ..).trans_lt (h.blocked _ e he hpresent hreset)
  · intro j u hu hpending
    rcases Lists.getElem?_modify_cases hu with ⟨rfl, a, ha, rfl⟩ | ⟨hne, hold⟩
    · cases hpending
    · obtain ⟨e, he, hkey, hthis, hmem⟩ := h.holds j u hold hpending
      refine ⟨e, he, hkey, hthis, ?_⟩
      split
      · exact (List.mem_erase_of_ne hne).mpr hmem
      · exact hmem

theorem idleElapses (h : m.Kept []) (k : ℕ) (e : Entry κ) : (m.idleElapses k e).Kept [] := by
  have hoff : (m.modify k fun e => { e with idle := false }).Kept [] :=
    h.modify k (fun e => ⟨rfl, rfl, rfl⟩) (h.blocked k) (fun e _ hidle => by cases hidle)
  unfold Manager.idleElapses
  dsimp only
  split
  · split
    · exact hoff
    · exact hoff.autoClose e.key
  · exact hoff

omit [DecidableEq κ] in
/-- The call is noted. -/
theorem promises (h : m.Kept hand) {p : Promised}
    (hp : (∀ c, p = .closing c → c < m.closings.length) ∧ ∀ r, p = .reset r → r < m.resets.length) :
    Kept hand { m with resetCalls := m.resetCalls ++ [p] } :=
  { h with
    called := by
      intro q hq
      rcases List.mem_append.mp hq with hq | hq
      · exact h.called q hq
      · obtain rfl := List.mem_singleton.mp hq
        exact hp }

omit [DecidableEq κ] in
/-- A deferred reset is made on a present entry that a retain blocks which is no hold. -/
theorem defers (h : m.Kept []) {e : Entry κ} (he : m.objects[k]? = some e)
    (hpresent : m.entries e.key = some k) (hnone : e.reset = none)
    (hblocked : e.holdTimers.length < e.retained) :
    Kept [] { m.modify k fun e => { e with reset := some m.resets.length } with
      resets := m.resets ++ [{ entry := k }] } := by
  have hnew : ∀ {e' : Entry κ} {r : ℕ}, m.objects[k]? = some e' → e'.reset ≠ some r := by
    intro e' r he'
    obtain rfl := Option.some.inj (he.symm.trans he')
    rw [hnone]
    simp
  refine ⟨?_, ?_, ?_, ?_, ?_, ?_, h.single, ?_,
    fun j hj => gone_setReset k _ (h.discarded j hj), h.nodup, ?_⟩
  · intro key j hj
    obtain ⟨a, ha, hkey⟩ := h.valid key j hj
    obtain ⟨b, hb, hbkey, -⟩ := there_setReset k _ ha
    exact ⟨b, hb, hbkey.trans hkey⟩
  · intro i t ht hpending
    obtain ⟨a, ha, hkey, hthis, hmem⟩ := h.holds i t ht hpending
    obtain ⟨b, hb, hbkey, hbtimers, -⟩ := there_setReset k _ ha
    exact ⟨b, hb, hbkey.trans hkey, hthis, hbtimers ▸ hmem⟩
  · intro j b hb hj hreset
    obtain ⟨-, rfl⟩ | ⟨-, hb⟩ := back_setReset he hb
    · exact hblocked
    · exact h.blocked j b hb hj hreset
  · intro j b hb hidle
    obtain ⟨rfl, rfl⟩ | ⟨-, hb⟩ := back_setReset he hb
    · exact h.idle j e he hidle
    · exact h.idle j b hb hidle
  · intro j b r hb hreset
    obtain ⟨rfl, rfl⟩ | ⟨-, hb⟩ := back_setReset he hb
    · obtain rfl := Option.some.inj hreset
      exact ⟨⟨_, List.getElem?_concat_length, rfl, rfl⟩, .inl hpresent⟩
    · obtain ⟨⟨p, hp, hrest⟩, hw⟩ := h.deferred j b r hb hreset
      exact ⟨⟨p, Lists.getElem?_append_of_some hp, hrest⟩, hw⟩
  · intro c x hx
    exact (h.closings c x hx).imp_right (gone_setReset k _)
  · intro r p hp
    rcases Lists.getElem?_append_cases hp with ⟨rfl, rfl⟩ | hold
    · refine .inl ⟨_, (List.getElem?_modify_eq ..).trans (congrArg (Option.map _) he), rfl⟩
    · rcases h.resets r p hold with ⟨a, ha, hreset⟩ | ⟨o, ho, hhand, hne, hrest⟩
      · obtain ⟨b, hb, -, -, hba⟩ := there_setReset k _ ha
        have hpk : p.entry ≠ k := by
          intro heq
          exact hnew (heq ▸ ha) hreset
        exact .inl ⟨b, hb, by rw [hba hpk]; exact hreset⟩
      · exact .inr ⟨o, ho, hhand, gone_setReset k _ hne, hrest⟩
  · intro p hp
    refine ⟨(h.called p hp).1, fun r hr => ((h.called p hp).2 r hr).trans ?_⟩
    simp

theorem resetWhenUnused (h : m.Kept []) (key : κ) : (m.resetWhenUnused key).Kept [] := by
  unfold Manager.resetWhenUnused
  split
  · rename_i k hk
    obtain ⟨e, he, rfl⟩ := h.valid key k hk
    simp only [he]
    split
    · have hcalls : (m.autoClose e.key).resetCalls = m.resetCalls := by
        simp [Manager.autoClose, hk, Manager.closeEntry, Manager.discard, he, Manager.modify]
      rw [← hcalls]
      refine @promises _ _ [] (h.autoClose e.key) (.closing m.closings.length)
        ⟨fun c hc => ?_, fun r hr => by cases hr⟩
      obtain rfl := Promised.closing.inj hc
      rw [Manager.autoClose, hk]
      simp [Manager.closeEntry, Manager.discard, he, Manager.modify]
    · rename_i hblocked
      split
      · rename_i r hr
        obtain ⟨⟨p, hp, -⟩, -⟩ := h.deferred k e r he hr
        refine @promises _ m [] h (.reset r) ⟨fun c hc => (by cases hc), fun q hq => ?_⟩
        obtain rfl := Promised.reset.inj hq
        exact (List.getElem?_eq_some_iff.mp hp).1
      · rename_i hnone
        refine (h.defers he hk hnone (Nat.lt_of_not_le hblocked)).promises
          ⟨fun c hc => (by cases hc), fun q hq => ?_⟩
        obtain rfl := Promised.reset.inj hq
        simp
  · exact h.promises ⟨fun c hc => (by cases hc), fun r hr => (by cases hr)⟩

theorem acquire (h : m.Kept []) (key : κ) : (m.acquire key).Kept [] := by
  have hentry := h.entry key
  unfold Manager.acquire
  dsimp only
  split
  · split
    · exact hentry.of_eq rfl rfl rfl rfl rfl rfl
    · exact hentry.of_eq rfl rfl rfl rfl rfl rfl
    · refine of_eq (hentry.modify (m.entry key).2 (f := fun e => { e with connecting := some _ })
        (fun e => ⟨rfl, rfl, rfl⟩) (hentry.blocked _) (hentry.idle _)) rfl rfl rfl rfl rfl rfl
  · exact hentry

omit [DecidableEq κ] in
theorem register (h : m.Kept []) (o : ℕ) (p : Open) : (m.register o p).Kept [] :=
  of_eq (h.modify p.entry (f := fun e => { e with session := some m.sessions })
    (fun _ => ⟨rfl, rfl, rfl⟩) (h.blocked _) (h.idle _)) rfl rfl rfl rfl rfl rfl

omit [DecidableEq κ] in
theorem conclude (h : m.Kept []) (o : ℕ) (p : Open) (verdict : Acquired) :
    (m.conclude o p verdict).Kept [] := by
  refine of_eq (h.modify p.entry (f := fun e =>
    if e.connecting = some o then { e with connecting := none } else e) ?_ ?_ ?_)
      rfl rfl rfl rfl rfl rfl
  · intro e
    split
    · exact ⟨rfl, rfl, rfl⟩
    · exact ⟨rfl, rfl, rfl⟩
  · intro e he hpresent hreset
    split
    · exact h.blocked _ e he hpresent hreset
    · exact h.blocked _ e he hpresent hreset
  · intro e he hidle
    split at hidle
    · rename_i hthis
      rw [if_pos hthis]
      exact h.idle _ e he hidle
    · rename_i hother
      rw [if_neg hother]
      exact h.idle _ e he hidle

omit [DecidableEq κ] in
theorem continues (h : m.Kept []) (o : ℕ) (p : Open) (result : Except String ℕ) :
    (m.continues o p result).Kept [] := by
  cases result with
  | error err => exact h.conclude o p _
  | ok i =>
    simp only [Manager.continues]
    split
    · exact h.of_eq rfl rfl rfl rfl rfl rfl
    · apply conclude
      exact h.modify p.entry (fun e => ⟨rfl, rfl, rfl⟩) (h.blocked _) (h.idle _)

/-- **Step lemma.** -/
theorem step (h : m.Kept []) {a : Label κ} (hstep : m.step a = some n) : n.Kept [] := by
  cases transition_of_step hstep with
  | acquire => exact h.acquire _
  | register => exact h.register _ _
  | completes | fails | powered => exact h.of_eq rfl rfl rfl rfl rfl rfl
  | continues => exact h.continues _ _ _
  | abandoned => exact h.conclude _ _ _
  | @settles c o p r => cases r <;> exact h.of_eq rfl rfl rfl rfl rfl rfl
  | retain => exact h.retain _
  | release => exact h.release _
  | hold => exact h.hold _
  | holdExpires hh => exact h.holdExpires hh
  | idleElapses => exact h.idleElapses _ _
  | close => exact h.close _
  | remove => exact h.remove _
  | closeAll => exact h.closeAll
  | resetWhenUnused => exact h.resetWhenUnused _
  | closeEnds hc hpending => exact h.closeEnds hc hpending _

/-- **Run lemma.** -/
theorem run {labels : List (Label κ)} (hexec : exec Manager.step {} labels = some m) :
    m.Kept [] :=
  (run_of_exec hexec).invariant start fun _ _ _ h hstep => h.step hstep

end Kept

/-- An idle close takes the entry whose window it is, and nothing retains it. -/
theorem idleElapses_eq [DecidableEq κ] {m n : Manager κ} {k : ℕ} (h : m.Kept [])
    (hstep : m.step (.idleElapses k) = some n) :
    ∃ e, m.objects[k]? = some e ∧ m.entries e.key = some k ∧ e.retained = 0 ∧
      n = (m.modify k fun e => { e with idle := false }).autoClose e.key := by
  cases Manager.transition_of_step hstep with
  | @idleElapses k e he hidle =>
    obtain ⟨hpresent, hzero⟩ := h.idle k e he hidle
    refine ⟨e, he, hpresent, hzero, ?_⟩
    have hnow : (m.objects.modify k fun e => { e with idle := false })[k]? =
        some { e with idle := false } :=
      (List.getElem?_modify_eq ..).trans (congrArg (Option.map _) he)
    simp only [Manager.idleElapses, Manager.modify, hpresent, Option.bind_some, hnow, hzero,
      lt_self_iff_false, if_false]

/-- A call of `resetWhenUnused` returns a promise of the entry that is in the map, if any. -/
theorem resetWhenUnused_calls [DecidableEq κ] {m : Manager κ} (h : m.Kept []) (key : κ) :
    ∃ p, (m.resetWhenUnused key).resetCalls = m.resetCalls ++ [p] ∧
      match m.entries key with
      | none => p = .done
      | some k =>
        (∃ (c : ℕ) (x : Closing),
          p = .closing c ∧ (m.resetWhenUnused key).closings[c]? = some x ∧ x.entry = k) ∨
        ∃ (r : ℕ) (q : Reset),
          p = .reset r ∧ (m.resetWhenUnused key).resets[r]? = some q ∧ q.entry = k := by
  rw [Manager.resetWhenUnused]
  cases hk : m.entries key with
  | none => exact ⟨_, rfl, rfl⟩
  | some k =>
    obtain ⟨e, he, rfl⟩ := h.valid key k hk
    simp only [he]
    split
    · refine ⟨_, rfl, .inl ⟨m.closings.length, ⟨k, e.session, none⟩, rfl, ?_, rfl⟩⟩
      have hclosings : (m.autoClose e.key).closings = m.closings ++ [⟨k, e.session, none⟩] := by
        simp [Manager.autoClose, hk, Manager.closeEntry, Manager.discard, he, Manager.modify]
      rw [hclosings]
      exact List.getElem?_concat_length
    · split
      · rename_i r hr
        obtain ⟨⟨q, hq, hentry, -⟩, -⟩ := h.deferred k e r he hr
        exact ⟨_, rfl, .inr ⟨r, q, rfl, hq, hentry⟩⟩
      · exact ⟨_, rfl, .inr ⟨_, _, rfl, List.getElem?_concat_length, rfl⟩⟩

/-- The books of a manager. -/
structure Balanced (m : Manager κ) : Prop where
  /-- A hold that is pending is one of the entry it was taken on, which is in the map. -/
  holds : ∀ (i : ℕ) t, m.holds[i]? = some t → t.pending = true →
    ∃ e, m.objects[t.entry]? = some e ∧ e.key = t.key ∧ m.entries t.key = some t.entry ∧
      i ∈ e.holdTimers
  /-- A reset that waits on an entry in the map is blocked by a retain that is no hold. -/
  blocked : ∀ (k : ℕ) e, m.objects[k]? = some e → m.entries e.key = some k →
    e.reset.isSome = true → e.holdTimers.length < e.retained
  /-- The promise of a deferred reset is unsettled while its entry is in the map, settled once
  and as the close of its entry ended where there is one, and resolved where the entry was
  removed without. -/
  resets : ∀ (r : ℕ) p, m.resets[r]? = some p → ∃ e, m.objects[p.entry]? = some e ∧
    (m.entries e.key = some p.entry → p.settlements = []) ∧
    (∀ x ∈ m.closings, x.entry = p.entry → p.settlements = x.outcome.toList) ∧
    (m.entries e.key ≠ some p.entry → (∀ x ∈ m.closings, x.entry ≠ p.entry) →
      p.settlements = [.resolved])
  /-- What a call of `resetWhenUnused` returned is the promise of a deferred reset or that of a
  close. -/
  calls : ∀ p ∈ m.resetCalls, match p with
    | .done => True
    | .closing c => ∃ x, m.closings[c]? = some x
    | .reset r => ∃ p, m.resets[r]? = some p
  /-- An idle window runs on an entry in the map that nothing retains. -/
  idle : ∀ (k : ℕ) e, m.objects[k]? = some e → e.idle = true →
    m.entries e.key = some k ∧ e.retained = 0

theorem Kept.balanced {m : Manager κ} (h : m.Kept []) : m.Balanced where
  holds := h.holds
  blocked := h.blocked
  idle := h.idle
  calls p hp := by
    cases p with
    | done => trivial
    | closing c => exact ⟨_, List.getElem?_eq_getElem ((h.called _ hp).1 c rfl)⟩
    | reset r => exact ⟨_, List.getElem?_eq_getElem ((h.called _ hp).2 r rfl)⟩
  resets r p hp := by
    rcases h.resets r p hp with ⟨e, he, hreset⟩ | ⟨o, ho, -, ⟨e, he, hgone⟩, hall, hsome⟩
    · -- the promise is unsettled: its entry is in the map or its close is under way
      obtain ⟨⟨q, hq, -, hnil⟩, hwhere⟩ := h.deferred p.entry e r he hreset
      obtain rfl := Option.some.inj (hp.symm.trans hq)
      have hopen : ∀ x ∈ m.closings, x.entry = p.entry → x.outcome = none := by
        intro x hx hxp
        obtain ⟨c, hc⟩ := List.mem_iff_getElem?.mp hx
        obtain ⟨-, a, ha, hne⟩ := h.closings c x hc
        rw [hxp, he] at ha
        obtain rfl := Option.some.inj ha
        rcases hwhere with hpresent | hmem | ⟨d, y, hd, hy, hnone⟩
        · exact absurd (hxp ▸ hpresent) hne
        · cases hmem
        · obtain rfl := h.single c d x y hc hd (hxp.trans hy.symm)
          obtain rfl := Option.some.inj (hc.symm.trans hd)
          exact hnone
      refine ⟨e, he, fun _ => hnil, fun x hx hxp => ?_, fun hgone hnone => ?_⟩
      · rw [hopen x hx hxp, hnil]
        rfl
      · rcases hwhere with hpresent | hmem | ⟨d, y, hd, hy, -⟩
        · exact absurd hpresent hgone
        · cases hmem
        · exact absurd hy (hnone y (List.mem_of_getElem? hd))
    · refine ⟨e, he, fun hpresent => absurd hpresent hgone, fun x hx hxp => ?_, fun _ hnone => ?_⟩
      · obtain ⟨c, hc⟩ := List.mem_iff_getElem?.mp hx
        rw [hall c x hc hxp, ho]
        rfl
      · rcases hsome with ⟨c, x, hc, hxp⟩ | rfl
        · exact absurd hxp (hnone x (List.mem_of_getElem? hc))
        · exact ho

variable [DecidableEq κ]

/-- **The books balance** behind every run. An idle window that elapses closes the entry it is
one of, which nothing retains, and a call of `resetWhenUnused` returns a promise of the entry it
finds. -/
theorem books_balance (labels : List (Label κ)) (m : Manager κ)
    (hexec : exec Manager.step {} labels = some m) :
    m.Balanced ∧
    (∀ k n, m.step (.idleElapses k) = some n →
      ∃ e, m.objects[k]? = some e ∧ m.entries e.key = some k ∧ e.retained = 0 ∧
        n = (m.modify k fun e => { e with idle := false }).autoClose e.key) ∧
    ∀ key n, m.step (.resetWhenUnused key) = some n →
      ∃ p, n.resetCalls = m.resetCalls ++ [p] ∧
        match m.entries key with
        | none => p = .done
        | some k =>
          (∃ (c : ℕ) (x : Closing), p = .closing c ∧ n.closings[c]? = some x ∧ x.entry = k) ∨
          ∃ (r : ℕ) (q : Reset), p = .reset r ∧ n.resets[r]? = some q ∧ q.entry = k := by
  have hkept : m.Kept [] := Kept.run hexec
  refine ⟨hkept.balanced, fun k n hstep => idleElapses_eq hkept hstep, fun key n hstep => ?_⟩
  obtain rfl := Option.some.inj hstep
  exact resetWhenUnused_calls hkept key

/-- A reset that a retain blocks, over a hold of the same entry, and its close. -/
theorem books_balance_deferred_reset : ∃ m : Manager ℕ,
    exec Manager.step {} [.retain 0, .hold 0, .resetWhenUnused 0, .release 0,
      .closeEnds 0 .resolved] = some m ∧ m.Balanced ∧ m.resets = [⟨0, [.resolved]⟩] :=
  ⟨_, rfl, (books_balance [.retain 0, .hold 0, .resetWhenUnused 0, .release 0,
    .closeEnds 0 .resolved] _ rfl).1, rfl⟩

end Manager

end EufySdk.SessionLifecycle
