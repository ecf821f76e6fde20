import Xlibre.Xkb.Course

/-! Keys and buttons that set modifiers or the group of one keyboard: whose filter ends with which event. -/
namespace Xlibre.Xkb

open XkbFilter

/-- The actions of keys and buttons that last until the key or button goes up. -/
def ActionType.holds : ActionType → Bool
  | noAction | setMods | lockMods | setGroup => true
  | _ => false

def HoldingPress (p : Press) : Prop := p.act.type.holds = true

/-- The same without actions on buttons, and with changes of the group that a filter can keep. -/
structure KeyOnlyPress (k : Keyboard) (p : Press) : Prop where
  holding : HoldingPress p
  button : ∀ b, p.input = .button b → p.act.type = .noAction
  fits : (k.passed (.press p)).xkbi.Fits ((k.passed (.press p)).action.getD .zeroed)

/-- The filter of each key or button is active from its press to its release, whatever else goes up or down. -/
structure Course.Separate (c : Course) : Prop where
  /-- No other event has ended the filter of a key or button that is down. -/
  kept : ∀ h ∈ c.holds, ∃ f, c.kbd.xkbi.filters[h.slot]? = some f ∧ f.active = true
  /-- A filter that is active has its key or button down. -/
  ended : ∀ (j : ℕ) (f : XkbFilter), c.kbd.xkbi.filters[j]? = some f → f.active = true →
    ∃ h ∈ c.holds, h.slot = j ∧ h.input ∈ c.down
  inputs : (c.holds.map Hold.input).Nodup
  up : c.down = [] → c.kbd.xkbi.state.baseMods = 0 ∧ c.kbd.xkbi.state.baseGroup = 0

lemma KeyOnlyPress.sound {k : Keyboard} {p : Press} (h : KeyOnlyPress k p) : k.Sound p := by
  have hholds : p.act.type.holds = true := h.holding
  refine ⟨?_,?_,h.fits⟩
  · cases ht : p.act.type <;> simp_all [ActionType.holds,ActionType.ofState]
  · cases hin : p.input with
    | key k => exact .inr ⟨k,rfl⟩
    | button b => exact .inl (h.button b hin)

def XkbSrvInfo.NoLatch (xkbi : XkbSrvInfo) : Prop :=
  ∀ (j : ℕ) (f : XkbFilter), xkbi.filters[j]? = some f → f.active = true → f.filter ≠ some .latchState

lemma NoLatch.of_filters {xkbi x : XkbSrvInfo} (h : xkbi.NoLatch) (heq : x.filters = xkbi.filters) : x.NoLatch := by
  intro j f hf
  exact h j f (heq ▸ hf)

namespace Course.Accounted
variable {c : Course} (h : c.Accounted)
include h

lemma noLatch_press {p : Press} {k : Keyboard} (hp : p.input ∉ c.down) (hs : KeyOnlyPress c.kbd p)
    (hk : c.kbd.handleActions (.press p) = some k) (hno : c.kbd.xkbi.NoLatch) : k.xkbi.NoLatch := by
  have hpass := h.passed (.press p) (ofState_plain hs.sound.ofState) fun _ => hp
  obtain ⟨-,htook⟩ := h.took hp hs.sound
  refine NoLatch.of_filters (fun j f hf hact hlatch => ?_) (changed_handleActions hk).filters
  rcases htook.latch j f hf hact hlatch with ⟨g,hg,hgact,hglatch⟩ | htype
  · obtain ⟨g',hg',hact',hlatch'⟩ := hpass.latch j g hg hgact hglatch
    exact hno j g' hg' hact' hlatch'
  · have hholds : p.act.type.holds = true := hs.holding
    have hact := hpass.action
    rcases hact with heq | ⟨a,t,-,-,heq,rfl | rfl⟩
    · rw [heq] at htype
      rcases htype with ht | ht <;> simp [Event.action] at ht <;> simp [ht,ActionType.holds] at hholds
    · simp [heq] at htype
    · simp [heq] at htype

lemma noLatch_release {x : Input} {k : Keyboard} (hk : c.kbd.handleActions (.release x) = some k)
    (hno : c.kbd.xkbi.NoLatch) : k.xkbi.NoLatch := by
  have hpass := h.passed (.release x) (fun a ha => by cases ha) fun hne => absurd rfl hne
  refine NoLatch.of_filters (fun j f hf hact hlatch => ?_) (changed_handleActions hk).filters
  obtain ⟨g,hg,hgact,hglatch⟩ := hpass.latch j f hf hact hlatch
  exact hno j g hg hgact hglatch

end Course.Accounted

lemma Course.Reach.noLatch {c : Course} (h : Course.Reach KeyOnlyPress c) : c.kbd.xkbi.NoLatch := by
  induction h with
  | idle h =>
    intro j f hf hact
    rw [h.filters f (List.mem_of_getElem? hf)] at hact
    cases hact
  | press hc hp hs hk ih => exact (hc.accounted fun _ _ hp => hp.sound).noLatch_press hp hs hk ih
  | release hc _ hk ih => exact (hc.accounted fun _ _ hp => hp.sound).noLatch_release hk ih

def shiftPress (input : Input) : Press := { input := input, act := { type := .setMods, mask := 1 } }

def shiftKey : Input := keyOf 50 (by decide)

def firstButton : Input := .button ⟨1,by decide⟩

end Xlibre.Xkb
