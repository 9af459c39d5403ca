/-
This file shows that it does not matter how a text is delivered. A lexer over a text in memory and a
lexer over a device that delivers the same text, in whatever pieces and with whatever interruptions,
cannot be told apart by any requests, and neither can the readers over them.
-/

import Scoresheet.Cache.PairHash
import Scoresheet.Proofs.Agreement
import Scoresheet.Proofs.Echoes
import Scoresheet.Proofs.Reliable

namespace Scoresheet

namespace Lexer

/-- Alike lexers over sources that never fail. -/
structure Twins (first second : Lexer) : Prop extends first.Alike second where
  unfailingFirst : first.source.IsUnfailing
  unfailingSecond : second.source.IsUnfailing

variable {first second : Lexer}

theorem Twins.ofDevice {device : Device} (honest : device.IsHonest)
    (unfailing : device.IsUnfailing) :
    (ofSource (.ofBytes device.unread)).Twins (ofSource (.ofDevice device)) where
  honestFirst := trivial
  honestSecond := .ofDevice honest
  content := List.append_nil _
  state := rfl
  unfailingFirst := trivial
  unfailingSecond := unfailing

theorem Twins.advance (twins : first.Twins second) :
    ∃ firstAfter secondAfter, Scan.advance.run first = (.ok (), firstAfter) ∧
      Scan.advance.run second = (.ok (), secondAfter) ∧ firstAfter.Twins secondAfter := by
  obtain ⟨firstAfter, success, unfailing⟩ := advance_of_isUnfailing twins.unfailingFirst
  obtain ⟨secondAfter, success', unfailing'⟩ := advance_of_isUnfailing twins.unfailingSecond
  exact ⟨firstAfter, secondAfter, success, success',
    ⟨twins.toAlike.advance success success', unfailing, unfailing'⟩⟩

theorem Twins.close (twins : first.Twins second) : first.close.Twins second.close where
  honestFirst := .close first.source
  honestSecond := .close second.source
  content := by
    show first.source.close.content = second.source.close.content
    rw [Source.content_close, Source.content_close]
  state := congrArg (fun lexer : Lexer => { lexer.close with source := first.source.close })
    twins.state
  unfailingFirst := .close first.source
  unfailingSecond := .close second.source

/-- Twins are not told apart, wherever their tokens stand. -/
theorem isEcho_twins : IsEcho id Twins where
  same _ _ twins := twins.view fun _ _ => rfl
  advance _ _ twins := twins.advance
  close _ _ twins := twins.close

theorem Twins.answers (twins : first.Twins second) (requests : List Request) :
    first.answers requests = second.answers requests := by
  have answers := isEcho_twins.answers twins requests
  rwa [relocatedAnswers_id, relocatedAnswers_id] at answers

end Lexer

namespace Reader

/-- Readers over twins that are in the same state otherwise. -/
structure Twins (first second : Reader) : Prop where
  lexer : first.lexer.Twins second.lexer
  state : { second with lexer := first.lexer } = first

variable {first second : Reader}

theorem Twins.echoes (twins : first.Twins second) : Echoes id Lexer.Twins first second where
  lexer := twins.lexer
  errors := by rw [← twins.state]
  state := by rw [← twins.state]

variable [Hashable HeaderPair]

theorem Twins.answers (twins : first.Twins second) (requests : List Request) :
    first.answers requests = second.answers requests := by
  have answers := twins.echoes.answers Lexer.isEcho_twins requests
  rwa [relocatedAnswers_id, relocatedAnswers_id] at answers

end Reader

/-- A text is read alike from memory and from a device that delivers it in any pieces: no requests
tell the two lexers apart, and none tell the two readers apart, whatever the settings. -/
theorem answers_ofDevice_eq [Hashable HeaderPair] (device : Device) (honest : device.IsHonest)
    (unfailing : device.IsUnfailing) :
    (∀ requests : List Lexer.Request,
      (Lexer.ofSource (.ofDevice device)).answers requests =
        (Lexer.ofSource (.ofBytes device.unread)).answers requests) ∧
    ∀ (config : Config) (requests : List Reader.Request),
      (Reader.start config (.ofSource (.ofDevice device))).answers requests =
        (Reader.start config (.ofSource (.ofBytes device.unread))).answers requests := by
  have twins := Lexer.Twins.ofDevice honest unfailing
  refine ⟨fun requests => (twins.answers requests).symm, fun config requests => ?_⟩
  have readers : (Reader.start config (.ofSource (.ofBytes device.unread))).Twins
      (Reader.start config (.ofSource (.ofDevice device))) := ⟨twins, rfl⟩
  exact (readers.answers requests).symm

/-- Seven bytes, delivered in small pieces and with interruptions. -/
def Device.hesitant : Device where
  unread := [0x31, 0x2E, 0x20, 0x65, 0x34, 0x20, 0x2A]
  replies := [.deliver 1, .interrupted, .deliver 3, .interrupted, .interrupted]
  habit := .deliver 1

open scoped PairHash

theorem answers_hesitant_eq :
    Device.hesitant.IsHonest ∧ Device.hesitant.IsUnfailing ∧
    (∀ requests : List Lexer.Request,
      (Lexer.ofSource (.ofDevice .hesitant)).answers requests =
        (Lexer.ofSource (.ofBytes Device.hesitant.unread)).answers requests) ∧
    ∀ (config : Config) (requests : List Reader.Request),
      (Reader.start config (.ofSource (.ofDevice .hesitant))).answers requests =
        (Reader.start config (.ofSource (.ofBytes Device.hesitant.unread))).answers requests := by
  have honest : Device.hesitant.IsHonest := by unfold Device.IsHonest; decide
  have unfailing : Device.hesitant.IsUnfailing :=
    ⟨fun failure => by simp [Device.hesitant], nofun⟩
  exact ⟨honest, unfailing, answers_ofDevice_eq .hesitant honest unfailing⟩

end Scoresheet
