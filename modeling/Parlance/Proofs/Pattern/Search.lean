import Parlance.Proofs.Pattern.Cut
import Parlance.Proofs.Pattern.Keyed

/-! Searching a text. What is found is a match of the pattern in the text, and the hits of a text are
what a search finds that goes on behind each hit. -/

namespace Parlance

open Text (size isBlank isWordAt)

namespace Pattern

variable {p : Pattern} {low : Nat} {u v cs : List Char} {h : Hit}

/-- The hit is one of `w` behind `u ++ a`, and `v` is `a`, `w` and some rest. -/
structure FoundAt (p : Pattern) (low : Nat) (u v a w x : List Char) (h : Hit) : Prop where
  text_eq : v = a ++ (w ++ x)
  low_le : low ≤ size (u ++ a)
  matched : Matches p (u ++ a) w x
  span_eq : h.span = ⟨size (u ++ a), size (u ++ a ++ w)⟩

theorem hitAt?_eq_some (hh : (if low ≤ size u then p.hitAt? (.between u v) else none) = some h) :
    ∃ w x, FoundAt p low u v [] w x h := by
  split at hh
  · next hlow =>
    obtain ⟨d, hruns, hspan⟩ := runs_of_hitAt? hh
    obtain ⟨x, rfl, rfl⟩ := hruns.toOver.between
    refine ⟨h.text, x, rfl, by simpa using hlow, by simpa using hruns.matches rfl, ?_⟩
    rw [hspan, List.append_nil]
    rfl
  · cases hh

/-- What is found is what matching finds at the first place where it finds anything. -/
theorem exists_hitAt?_of_findFrom? (hh : p.findFrom? low (.between u v) v = some h) :
    ∃ a y, v = a ++ y ∧ low ≤ size (u ++ a) ∧ p.hitAt? (.between (u ++ a) y) = some h := by
  obtain ⟨a, d, hover, hlow, hit⟩ := hitAt?_of_findFrom? rfl hh
  obtain ⟨y, rfl, rfl⟩ := hover.between
  exact ⟨a, y, rfl, hlow, hit⟩

theorem findFrom?_eq_some (hh : p.findFrom? low (.between u v) v = some h) :
    ∃ a w x, FoundAt p low u v a w x h := by
  obtain ⟨a, y, rfl, hlow, hit⟩ := exists_hitAt?_of_findFrom? hh
  have hhere : (if low ≤ size (u ++ a) then p.hitAt? (.between (u ++ a) y) else none) = some h := by rwa [if_pos hlow]
  obtain ⟨w, x, rfl, -, hm, hspan⟩ := hitAt?_eq_some hhere
  exact ⟨a, w, x, rfl, hlow, by simpa using hm, by simpa using hspan⟩

namespace FoundAt

variable {a w x : List Char}

theorem stop_le (hf : FoundAt p low u v a w x h) : h.span.stop ≤ size (u ++ v) := by
  obtain ⟨rfl, -, -, hspan⟩ := hf
  simp only [hspan, Text.size_append]
  omega

/-- A match of something moves the search on. -/
theorem low_lt_stop (hf : FoundAt p low u v a w x h) (hp : p.nullable = false) :
    size (u ++ a) < h.span.stop := by
  obtain ⟨c, w, rfl⟩ : ∃ c w', w = c :: w' := by
    refine List.exists_cons_of_ne_nil fun hw => ?_
    rw [hf.matched.spells.nullable_or_begins.1 hw] at hp
    cases hp
  have hc := c.utf8Size_pos
  simp only [hf.span_eq, Text.size_append (u ++ a), size]
  omega

end FoundAt

/-- A search passes over the places before `low`. -/
theorem hitsFrom_cons_of_lt (c : Char) (hlow : size u < low) :
    p.hitsFrom low (.between u (c :: v)) (c :: v) = p.hitsFrom low (.between (u ++ [c]) v) v := by
  rw [hitsFrom_between_cons, if_neg (Nat.not_le.mpr hlow)]

/-- The hits are what is found again and again, each search going on behind the last hit. -/
theorem hitsFrom_eq_find (hp : p.nullable = false) :
    p.hitsFrom low (.between u v) v =
      match p.findFrom? low (.between u v) v with
      | none => []
      | some h => h :: p.hitsFrom h.span.stop (.between u v) v := by
  induction v generalizing u with
  | nil =>
    rw [hitsFrom_between_nil, show p.findFrom? low (.between u []) [] =
      if low ≤ size u then p.hitAt? (.between u []) else none from rfl]
    cases hit : (if low ≤ size u then p.hitAt? (.between u []) else none) with
    | none => rfl
    | some h =>
      -- There is nothing left that a match could run over.
      obtain ⟨w, x, hf⟩ := hitAt?_eq_some hit
      have hlt := hf.low_lt_stop hp
      have hle := hf.stop_le
      rw [List.append_nil] at hlt hle
      omega
  | cons c v ih =>
    rw [findFrom?_between_cons]
    cases hit : (if low ≤ size u then p.hitAt? (.between u (c :: v)) else none) with
    | some h =>
      obtain ⟨w, x, hf⟩ := hitAt?_eq_some hit
      have hlt := hf.low_lt_stop hp
      rw [List.append_nil] at hlt
      rw [hitsFrom_between_cons, hit]
      simp only
      rw [hitsFrom_cons_of_lt c hlt]
    | none =>
      rw [hitsFrom_between_cons, hit]
      simp only
      rw [ih]
      cases hfind : p.findFrom? low (.between (u ++ [c]) v) v with
      | none => rfl
      | some h =>
        obtain ⟨a, w, x, hf⟩ := findFrom?_eq_some hfind
        have hlt := hf.low_lt_stop hp
        have hc := c.utf8Size_pos
        simp only [Text.size_append, size] at hlt
        simp only
        rw [hitsFrom_cons_of_lt c (by omega)]

/-- A match that no earlier match runs into is a hit. -/
theorem mem_hitsFrom {b : List Char} (hlow : low ≤ size (u ++ b)) (hit : p.hitAt? (.between (u ++ b) v) = some h)
    (hclear : ∀ a d w x, b = a ++ d → d ≠ [] → Matches p (u ++ a) w x → w ++ x = d ++ v → ∃ y, d = w ++ y) :
    h ∈ p.hitsFrom low (.between u (b ++ v)) (b ++ v) := by
  induction b generalizing u low with
  | nil =>
    rw [List.append_nil] at hlow hit
    rw [List.nil_append]
    cases v with
    | nil =>
      rw [hitsFrom_between_nil, if_pos hlow, hit]
      exact List.mem_singleton_self h
    | cons c v =>
      rw [hitsFrom_between_cons, if_pos hlow, hit]
      exact List.mem_cons_self
  | cons c b ih =>
    have hshift : u ++ c :: b = u ++ [c] ++ b := by simp
    have hclear' : ∀ a d w x, b = a ++ d → d ≠ [] → Matches p (u ++ [c] ++ a) w x → w ++ x = d ++ v →
        ∃ y, d = w ++ y := by
      intro a d w x hb hd hm hwx
      exact hclear (c :: a) d w x (by rw [hb]; rfl) hd (by simpa using hm) hwx
    rw [List.cons_append, hitsFrom_between_cons]
    cases hhere : (if low ≤ size u then p.hitAt? (.between u (c :: (b ++ v))) else none) with
    | none => exact ih (by rwa [← hshift]) (by rwa [← hshift]) hclear'
    | some h' =>
      obtain ⟨w, x, hf⟩ := hitAt?_eq_some hhere
      obtain ⟨y, hy⟩ := hclear [] (c :: b) w x rfl (List.cons_ne_nil c b) hf.matched hf.text_eq.symm
      have hstop : h'.span.stop ≤ size (u ++ [c] ++ b) := by
        rw [hf.span_eq, ← hshift, hy]
        simp only [Text.size_append, size]
        omega
      exact List.mem_cons_of_mem _ (ih hstop (by rwa [← hshift]) hclear')

/-! ### Words and phrases -/

/-- A word is preferred in whatever case it is spelled. -/
theorem Prefers.spelled {w : String} {m x : List Char} (h : Spelled w.toList m) : Prefers (Pattern.word w) u m x [] := by
  rw [Pattern.word]
  generalize w.toList = letters at h
  induction h generalizing u with
  | nil => exact .empty
  | @cons l c _ _ hc _ ih => exact .seq_cons (v := [c]) (.one hc) ih

/-- Of words that open with different letters the one that stands there is preferred. -/
theorem Prefers.oneOf_spelled {ws : List String} (hcommon : ∀ w ∈ ws, ∀ l ∈ w.toList, isCommon l = true)
    (hne : "" ∉ ws) (hopen : (ws.map fun w => w.toList.head?.map Char.toLower).Nodup) {k : String} (hk : k ∈ ws)
    {u m x : List Char} (hm : Spelled k.toList m) : Prefers (Pattern.oneOf (ws.map Pattern.word)) u m x [] := by
  have hhead {w : String} (hw : w ∈ ws) {n : List Char} (hn : Spelled w.toList n) :
      n ≠ [] ∧ n.head?.map Char.toLower = w.toList.head?.map Char.toLower := by
    refine ⟨hn.ne_nil fun h => hne (String.toList_eq_nil_iff.mp h ▸ hw), ?_⟩
    rw [← List.head?_map, (spelled_iff (hcommon w hw)).mp hn, List.head?_map]
  induction ws with
  | nil => cases hk
  | cons w ws ih =>
    obtain ⟨hw, hrest⟩ := List.nodup_cons.mp hopen
    rcases List.mem_cons.mp hk with rfl | hmem
    · exact .oneOf_head (.spelled hm)
    · refine .oneOf_tail (fails_of_matches fun n y hv hn => ?_) (ih (fun v hv => hcommon v (.tail _ hv))
        (fun h => hne (.tail _ h)) hrest hmem fun hv => hhead (.tail _ hv))
      -- What stands there cannot open with the letters of two words.
      obtain ⟨hnne, hnhead⟩ := hhead List.mem_cons_self (spelled_of_spells_letters hn.spells)
      obtain ⟨hmne, hmhead⟩ := hhead hk hm
      obtain ⟨c, n, rfl⟩ := List.exists_cons_of_ne_nil hnne
      obtain ⟨d, m, rfl⟩ := List.exists_cons_of_ne_nil hmne
      obtain ⟨rfl, -⟩ := List.cons.inj hv
      exact hw (List.mem_map.mpr ⟨k, hmem, hmhead.symm.trans hnhead⟩)

theorem spells_oneOf {ps : List Pattern} {w : List Char} (h : (oneOf ps).Spells w) : ∃ p ∈ ps, p.Spells w := by
  induction ps with
  | nil =>
    cases h
    contradiction
  | cons p ps ih =>
    cases ps with
    | nil => exact ⟨p, List.mem_singleton_self p, h⟩
    | cons q qs =>
      cases h with
      | left h => exact ⟨p, List.mem_cons_self, h⟩
      | right h =>
        obtain ⟨r, hr, h⟩ := ih h
        exact ⟨r, List.mem_cons_of_mem _ hr, h⟩

def phraseWords (w : String) : List String := (Text.pieces (· = ' ') w.toList).map String.ofList

/-- A word inside a phrase, behind its first one, is one of its later words. -/
theorem opens_of_spells_words {ws : List String} (hws : Lettered ws) {w b d : List Char}
    (h : (seq ((ws.map word).intersperse gap)).Spells w) (hw : w = b ++ d) (hb : b ≠ [])
    (hlast : isWordAt b.getLast? = false) (hd : isWordAt d.head? = true) : Opens ws.tail d := by
  induction ws generalizing w b with
  | nil =>
    cases h
    simp [eq_comm, hb] at hw
  | cons k ws ih =>
    obtain ⟨hk, hrest⟩ := List.forall_mem_cons.mp hws
    -- The place before `d` is not inside a word.
    have hinside {m : List Char} (hm : Spelled k.toList m) (y : List Char) : m ≠ b ++ y := by
      rintro rfl
      have hc := hm.isWord hk.2 _ (List.mem_append_left y (List.getLast_mem hb))
      simp [List.getLast?_eq_some_getLast hb, isWordAt, hc] at hlast
    cases ws with
    | nil => exact absurd hw (hinside (spelled_of_spells_letters h) d)
    | cons k' ws =>
      rw [List.map_cons, List.map_cons, List.intersperse_cons_cons] at h
      obtain ⟨m, w', rfl, hm, h⟩ := spells_seq_cons h
      obtain ⟨g, r, rfl, hg, h⟩ := spells_seq_cons h
      have hfirst : Opens (k' :: ws) r := by
        have hleads : Leads [k'] (seq (((k' :: ws).map word).intersperse gap)) := by
          cases ws with
          | nil => exact .word k'
          | cons => exact (Leads.word k').seq_gap
        obtain ⟨k'', hk'', m, y, hr, hm, hy⟩ := hleads r h
        exact ⟨k'', List.mem_cons.mpr (.inl (List.mem_singleton.mp hk'')), m, y, hr, hm, hy⟩
      rcases List.append_eq_append_iff.mp hw with ⟨a, rfl, ha⟩ | ⟨a, ha, -⟩
      · rcases List.append_eq_append_iff.mp ha with ⟨a', rfl, rfl⟩ | ⟨a', rfl, rfl⟩
        · by_cases hnil : a' = []
          · rw [hnil] at hfirst
            exact hfirst
          · obtain ⟨k'', hk'', hopens⟩ := ih hrest h rfl hnil (isWordAt_last (isWordAt_last hlast))
            exact ⟨k'', List.mem_of_mem_tail hk'', hopens⟩
        · cases a' with
          | nil => simpa using hfirst
          | cons c a' =>
            obtain ⟨c', g', hg', hall⟩ := spells_gap hg
            have hc : isBlank c = true := hall c (by rw [← hg']; simp)
            simp [isWordAt, Text.isWord_of_isBlank hc] at hd
      · exact absurd ha (hinside (spelled_of_spells_letters hm) a)

theorem opens_of_spells_phrases {ws : List String} (hws : ∀ w ∈ ws, Lettered (phraseWords w)) {w b d : List Char}
    (h : (phrases ws).Spells w) (hw : w = b ++ d) (hb : b ≠ []) (hlast : isWordAt b.getLast? = false)
    (hd : isWordAt d.head? = true) : ∃ k ∈ ws, Opens (phraseWords k).tail d := by
  obtain ⟨p, hp, h⟩ := spells_oneOf h
  obtain ⟨k, hk, rfl⟩ := List.mem_map.mp hp
  have hphrase : phrase k = seq (((phraseWords k).map word).intersperse gap) := by
    rw [phraseWords, List.map_map]
    rfl
  rw [hphrase] at h
  exact ⟨k, hk, opens_of_spells_words (hws k hk) h hw hb hlast hd⟩

end Pattern
end Parlance
