import BrokerProbe.Proofs.Settings.Meaning
import BrokerProbe.Settings.Basic
/-!
# Reading back written switches

Switches are written as an object that mentions every member once, so reading
gives them back, whatever the name of the environment.
-/

namespace BrokerProbe

namespace Settings

namespace Switches

variable (switches : Switches)

def entries : List Entry :=
  Member.all.map fun member => .known (switches.choice member)

theorem reads_renderValue (member : Member) (rest : List Char) :
    Json.Reads (.value (switches.choice member).json) (switches.renderValue member ++ rest)
      rest := by
  cases member with
  | switch each =>
      show Json.Reads (.value (.bool (switches.get each)))
        (renderBool (switches.get each) ++ rest) rest
      cases switches.get each with
      | false => exact .false
      | true => exact .true
  | environment =>
      show Json.Reads (.value (Choice.environment switches.environment).json)
        (renderText switches.environment ++ rest) rest
      cases switches.environment with
      | none => exact .null
      | some name => exact Json.reads_quoteChars name rest

theorem writtenAs_render : (Entry.object switches.entries).WrittenAs switches.render :=
  Json.writtenAs_object Member.name (fun member => (switches.choice member).json)
    switches.renderValue switches.reads_renderValue (.switch .consumerLatency) Member.all.tail

theorem mentioned_entries : Entry.mentioned switches.entries = Member.all := rfl

theorem heeds_entries : switches.Heeds switches.entries where
  said choice h := by
    rcases List.mem_map.mp h with ⟨member, _, heq⟩
    rw [<- Entry.known.inj heq, choice_member]
  unsaid member h := by
    rw [mentioned_entries] at h
    exact absurd (Member.mem_all member) h

/-- Written switches are read back as they were. -/
theorem parse_render : parse switches.render = .ok switches := by
  have hnodup : (Entry.mentioned switches.entries).Nodup := Member.nodup_all
  rw [parse_of_nodup switches.writtenAs_render hnodup,
    (heeds_foldl hnodup).unique switches.heeds_entries (List.Perm.refl _)]

theorem load_of_render {files : Files} {path : String} (h : files path = .ok switches.render) :
    load files path = .ok switches := by
  have hnodup : (Entry.mentioned switches.entries).Nodup := Member.nodup_all
  have hsame := (heeds_foldl hnodup).unique switches.heeds_entries (List.Perm.refl _)
  rw [load, h]
  simp only [parse_of_nodup switches.writtenAs_render hnodup, hsame, Except.mapError]

end Switches

end Settings

end BrokerProbe
