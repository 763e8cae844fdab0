import Webmeow.Parrot.Proofs.ProfanityProofs
import Webmeow.Parrot.Proofs.SummaryProofs

/-!
# Censored messages in the summary

A user message is stored with the flag that masking changed it, and it is counted by this flag or
by a run of asterisks of the right length. Asterisks that the guest wrote look like a mask, so
among the texts that are left as they are those with such a run are counted all the same.
-/

namespace Parrot

open Spelling

/-- The parrot with this stop list. -/
def StopList.app (f : StopList) (context : String) : App := ⟨context, f.maskProfanity⟩

theorem app_maskProfanity (f : StopList) (context text : String) :
    (f.app context).maskProfanity text = f.maskProfanity text := by
  unfold App.maskProfanity
  split_ifs with h
  · rw [h]
    rfl
  · rfl

theorem app_wasCensored (f : StopList) (context text : String) :
    (f.app context).wasCensored text = true ↔ f.maskProfanity text ≠ text := by
  unfold App.wasCensored
  rw [app_maskProfanity]
  split_ifs with h
  · rw [h]
    exact ⟨fun hf => hf.elim, fun hne => (hne rfl).elim⟩
  · exact decide_eq_true_iff

/-- Some pattern finds a match in the text with a character other than an asterisk. -/
def StopList.Profane (f : StopList) (text : String) : Prop :=
  ∃ pattern ∈ f.patterns, ∃ (k : ℕ) (x : Char),
    ((patternAlphabet f.unicode).hits pattern 0 none text.toList)[k]? = some true ∧
      text.toList[k]? = some x ∧ x ≠ MASK_CHAR

theorem substitute_ne_iff {f : StopList} {pattern : Word Char} {text : List Char} :
    f.substitute pattern text ≠ text ↔ ∃ (k : ℕ) (x : Char),
      ((patternAlphabet f.unicode).hits pattern 0 none text)[k]? = some true ∧
        text[k]? = some x ∧ x ≠ MASK_CHAR := by
  rw [Ne, StopList.substitute, sub_eq_paint, paint_eq_self_iff (length_hits pattern 0 none text)]
  simp only [not_forall]
  constructor
  · rintro ⟨k, x, hk, hx, hne⟩
    exact ⟨k, x, hk, hx, hne⟩
  · rintro ⟨k, x, hk, hx, hne⟩
    exact ⟨k, x, hk, hx, hne⟩

/-- A text changes just when it is profane: no later pattern undoes the mask of an earlier one. -/
theorem maskProfanity_ne_iff (f : StopList) (text : String) :
    f.maskProfanity text ≠ text ↔ f.Profane text := by
  have hself : f.maskProfanity text = text ↔
      ∀ pattern ∈ f.patterns, f.substitute pattern text.toList = text.toList := by
    rw [← String.toList_inj, maskProfanity_toList]
    exact maskAll_eq_self_iff
  rw [Ne, hself]
  simp only [not_forall]
  constructor
  · rintro ⟨pattern, hpattern, hne⟩
    exact ⟨pattern, hpattern, substitute_ne_iff.1 hne⟩
  · rintro ⟨pattern, hpattern, hhit⟩
    exact ⟨pattern, hpattern, substitute_ne_iff.2 hhit⟩

/-- The message is counted as censored, between the messages `pre` and `post` of its
conversation. -/
def AdminEnv.CountsCensored (env : AdminEnv) (pre : List Message) (u : Message)
    (post : List Message) : Prop :=
  (summarizeConversation env (pre ++ u :: post)).censoredCount =
    (summarizeConversation env (pre ++ post)).censoredCount + 1

theorem countsCensored_iff {env : AdminEnv} {pre post : List Message} {u : Message} :
    env.CountsCensored pre u post ↔ env.censors u = true := by
  simp only [AdminEnv.CountsCensored, summarizeConversation_eq, List.countP_append,
    List.countP_cons]
  split_ifs with h
  · exact ⟨fun _ => h, fun _ => by omega⟩
  · exact ⟨fun he => by omega, fun hu => absurd hu h⟩

/-- **The censored count**: a stored message is counted just when masking changed the text, if and
only if the text is profane or does not contain what looks like a mask. -/
theorem counted_iff_changed_iff (f : StopList) (context : String) (loads : String → Option Json)
    (req : ChatRequest) (history pre post : List Message) :
    (∀ u ∈ ((f.app context).assemble req history).newMessages,
      (AdminEnv.CountsCensored ⟨f.containsMask, loads⟩ pre u post ↔
        f.maskProfanity req.message ≠ req.message)) ↔
      (f.Profane req.message ∨ f.containsMask req.message = false) := by
  have hstored : ((f.app context).assemble req history).newMessages =
      [.user (f.maskProfanity req.message) ((f.app context).wasCensored req.message)] := by
    rw [← app_maskProfanity f context]
    rfl
  rw [hstored, List.forall_mem_singleton, countsCensored_iff]
  have hcensors : AdminEnv.censors ⟨f.containsMask, loads⟩
      (.user (f.maskProfanity req.message) ((f.app context).wasCensored req.message)) = true ↔
      f.maskProfanity req.message ≠ req.message ∨
        f.containsMask (f.maskProfanity req.message) = true := by
    rw [AdminEnv.censors, Bool.or_eq_true, app_wasCensored]
  rw [hcensors, maskProfanity_ne_iff]
  by_cases hprofane : f.Profane req.message
  · simp only [hprofane, true_or]
  · have hsame : f.maskProfanity req.message = req.message := by
      by_contra hne
      exact hprofane ((maskProfanity_ne_iff f req.message).1 hne)
    rw [hsame]
    simp only [hprofane, false_or, iff_false, Bool.not_eq_true]

section Asterisks

/-- A message with asterisks of its own. -/
def starredMessage : ChatRequest where
  message := "wow *** ok"
  guestId := some "guest-kiki-0001"
  maxLength := by decide

/-- Three asterisks that the guest wrote count as a mask, although nothing was masked. -/
theorem writtenAsterisks_counted :
    defaultStopList.maskProfanity starredMessage.message = starredMessage.message ∧
      ¬∀ u ∈ ((defaultStopList.app "").assemble starredMessage []).newMessages,
        (AdminEnv.CountsCensored ⟨defaultStopList.containsMask, fun _ => none⟩ [] u [] ↔
          defaultStopList.maskProfanity starredMessage.message ≠ starredMessage.message) := by
  have hsame : defaultStopList.maskProfanity starredMessage.message = starredMessage.message := by
    decide +kernel
  have hmask : defaultStopList.containsMask (defaultStopList.maskProfanity "wow *** ok") = true := by
    decide +kernel
  refine ⟨hsame, fun h => ?_⟩
  have hcounted : AdminEnv.CountsCensored ⟨defaultStopList.containsMask, fun _ => none⟩ []
      (.user ((defaultStopList.app "").maskProfanity "wow *** ok")
        ((defaultStopList.app "").wasCensored "wow *** ok")) [] := by
    rw [countsCensored_iff, app_maskProfanity]
    exact Bool.or_eq_true_iff.2 (Or.inr hmask)
  exact (h _ (List.mem_singleton_self _)).1 hcounted hsame

end Asterisks

end Parrot
