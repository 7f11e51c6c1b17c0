import Parlance.Interpretation
import Parlance.Proofs.Pattern.Keyed

/-! The key words of the grammar: the words without which a clause, a mention of a table or a phrase
for recent time is not found in a text. -/

namespace Parlance.Grammar

open Pattern Text

def cueWords : List String := ["where", "whose", "with", "having", "that", "which"]
def groupWords : List String := ["grouped", "group", "broken", "per", "by"]
def orderingWords : List String := ["order", "ordered", "sort", "sorted"]
def limitWords : List String := ["limit", "top", "first"]
def latestWords : List String := ["latest", "newest", "most", "last"]
def valuesWords : List String := ["with", "values", "having", "containing"]
def namedWords : List String := ["named", "called"]
def prepositions : List String := ["from", "into", "in", "of"]
def recencyWords : List String := ["last", "past", "yesterday", "today"]

theorem keyed_conditionCue : Keyed cueWords conditionCue :=
  ((headed_gap (.phrases _)).mono (by decide)).keyed (by decide)

theorem keyed_setCue : Keyed ["set"] setCue :=
  (headed_gap (.word "set")).keyed (by decide)

theorem keyed_valuesCue : Keyed valuesWords valuesCue :=
  ((headed_gap (.phrases _)).mono (by decide)).keyed (by decide)

theorem keyed_named : Keyed namedWords named :=
  ((headed_gap (.phrases _)).mono (by decide)).keyed (by decide)

theorem keyed_tablePreposition : Keyed prepositions tablePreposition :=
  ((headed_gap (.phrases _)).mono (by decide)).keyed (by decide)

theorem keyed_groupBy : Keyed groupWords groupBy :=
  ((headed_gap (Leads.phrases _).group).mono (by decide)).keyed (by decide)

theorem keyed_latest : Keyed latestWords latest :=
  ((headed_gap (.phrases _)).mono (by decide)).keyed (by decide)

theorem leads_ending (a b : String) : Leads [a, a ++ b] (both (word a) (optional (word b))) := by
  intro w hw
  cases hw with
  | both hu hv =>
    have ha := spelled_of_spells_letters hu
    cases hv with
    | left hv =>
      have hb := spelled_of_spells_letters hv
      exact ⟨a ++ b, by simp, _, [], (List.append_nil _).symm, by simpa using ha.append hb, rfl⟩
    | right hv =>
      cases hv
      exact ⟨a, by simp, _, [], rfl, ha, rfl⟩

theorem keyed_orderBy : Keyed orderingWords orderBy := by
  suffices Leads orderingWords (oneOf [both (word "order") (optional (word "ed")),
      both (word "sort") (optional (word "ed"))]) from (headed_gap this).keyed (by decide)
  refine .oneOf fun p hp => ?_
  rcases List.mem_cons.mp hp with rfl | hp
  · exact (leads_ending "order" "ed").mono (by decide)
  · rw [List.mem_singleton.mp hp]
    exact (leads_ending "sort" "ed").mono (by decide)

theorem keyed_limit : Keyed limitWords limit := by
  suffices Leads limitWords (oneOf [both (word "limit") (optional (both gap (word "to"))), word "top",
      word "first"]) from (headed_gap this).keyed (by decide)
  refine .oneOf fun p hp => ?_
  rcases List.mem_cons.mp hp with rfl | hp
  · refine ((Leads.word "limit").both fun w hw => ?_).mono (by decide)
    cases hw with
    | left hw =>
      cases hw with
      | both hu _ =>
        obtain ⟨c, cs, rfl, hc⟩ := spells_gap hu
        exact isWord_of_isBlank (hc c List.mem_cons_self)
    | right hw =>
      cases hw
      rfl
  · rcases List.mem_cons.mp hp with rfl | hp
    · exact (Leads.word "top").mono (by decide)
    · rw [List.mem_singleton.mp hp]
      exact (Leads.word "first").mono (by decide)

/-! A lead-in is empty or ends in a blank. -/

def EndsBlank (w : List Char) : Prop := ∀ c ∈ w.getLast?, isBlank c = true

theorem EndsBlank.append {u v : List Char} (hu : EndsBlank u) (hv : EndsBlank v) : EndsBlank (u ++ v) := by
  intro c hc
  rw [List.getLast?_append, Option.mem_def] at hc
  cases h : v.getLast? with
  | none =>
    rw [h] at hc
    exact hu c hc
  | some d =>
    rw [h] at hc
    cases hc
    exact hv c h

theorem endsBlank_of_lead {ws : List String} {w : List Char} (h : (lead ws).Spells w) : EndsBlank w := by
  cases h with
  | right h =>
    cases h
    exact fun c hc => nomatch hc
  | left h =>
    cases h with
    | @both _ _ u v _ hv =>
      obtain ⟨c, cs, rfl, hall⟩ := spells_gap hv
      intro d hd
      rw [List.getLast?_append, List.getLast?_eq_some_getLast (List.cons_ne_nil c cs)] at hd
      cases hd
      exact hall _ (List.getLast_mem _)

theorem endsBlank_of_timeLead {w : List Char} (h : timeLead.Spells w) : EndsBlank w := by
  obtain ⟨u, _, rfl, hu, h⟩ := spells_seq_cons h
  obtain ⟨v, x, rfl, hv, hx⟩ := spells_seq_cons h
  exact (endsBlank_of_lead hu).append ((endsBlank_of_lead hv).append (endsBlank_of_lead hx))

theorem EndsBlank.isWordAt {w : List Char} (h : EndsBlank w) : isWordAt w.getLast? = false := by
  cases hl : w.getLast? with
  | none => rfl
  | some c => exact isWord_of_isBlank (h c hl)

/-- What is needed behind a lead-in is needed with it. -/
theorem needs_timePhrase {ws : List String} {p : Pattern} (hws : Lettered ws) (h : Headed ws p) :
    Needs ws (both edge (both timeLead p)) := by
  intro u w x hm
  cases hm with
  | @both _ _ _ v w _ hv hw =>
    cases hv with
    | edge hedge =>
      cases hw with
      | @both _ _ _ l m _ hl hm =>
        have ho := h _ m x hm
        refine ⟨l, m ++ x, by simp, ?_, ho⟩
        cases l with
        | cons c l =>
          have hlast := (endsBlank_of_timeLead hl.spells).isWordAt
          rw [List.getLast?_eq_some_getLast (List.cons_ne_nil c l)] at hlast
          rw [List.getLast?_append, List.getLast?_eq_some_getLast (List.cons_ne_nil c l)]
          exact hlast
        | nil =>
          obtain ⟨-, -, n, y, hn, -, hne, hword, -⟩ := ho.exists_word hws
          rw [List.nil_append, hn, Cursor.atEdge_before hne hword] at hedge
          simpa using hedge

theorem TimePhrase.needs (p : TimePhrase) : Needs recencyWords p.pattern := by
  have hlast (ps : List Pattern) : Headed recencyWords (seq (phrases ["last", "past"] :: gap :: ps)) :=
    (headed_gap (.phrases _)).mono (by decide)
  have hday {k : String} (hk : Lettered [k]) (hmem : [k] ⊆ recencyWords) :
      Headed recencyWords (both (word k) edge) :=
    (headed_edge hk).mono hmem
  cases p with
  | lastN => exact needs_timePhrase (by decide) (hlast _)
  | lastUnit => exact needs_timePhrase (by decide) (hlast _)
  | yesterday => exact needs_timePhrase (by decide) (hday (by decide) (by decide))
  | today => exact needs_timePhrase (by decide) (hday (by decide) (by decide))

theorem needs_connective : Needs ["and", "or"] connective := by
  have hwords : Headed ["and", "or"] (seq [group 1 (phrases ["and", "or"]), gap]) :=
    (headed_gap (Leads.phrases _).group).mono (by decide)
  intro u w x hm
  cases (hm : Matches (both start (both gap (seq [group 1 (phrases ["and", "or"]), gap]))) u w x) with
  | both hstart hrest =>
    cases hstart with
    | start =>
      cases hrest with
      | @both _ _ _ v w _ hv hw =>
        obtain ⟨c, cs, rfl, hall⟩ := spells_gap hv.spells
        refine ⟨c :: cs, w ++ x, by simp, ?_, hwords _ w x hw⟩
        rw [List.nil_append, List.getLast?_eq_some_getLast (List.cons_ne_nil c cs)]
        exact isWord_of_isBlank (hall _ (List.getLast_mem _))

end Parlance.Grammar
