import ShaderVariants.Settings
import ShaderVariants.Document.Description
import ShaderVariants.Document.Draft
import ShaderVariants.Text.Lines

/-!
# Settings files

Settings are read from a TOML document with at most the two keys `namespace` and
`header_banner`. Faults of the document come first, then those of its entries in
the order of their keys, and the check of the namespace last.
-/

namespace ShaderVariants

/-- A key of a settings file. -/
inductive SettingsKey where
  | namespacePath
  | banner
deriving DecidableEq, Repr

namespace SettingsKey

/-- The key as the file spells it. -/
def spelling : SettingsKey → Text
  | namespacePath => "namespace"
  | banner => "header_banner"

/-- The type of the key's value. -/
def expected : SettingsKey → Text
  | namespacePath => "a string"
  | banner => "a boolean"

/-- The key of a spelling. -/
def ofText? (t : Text) : Option SettingsKey := [namespacePath, banner].find? (·.spelling == t)

end SettingsKey

/-- Why a text gives no settings. -/
inductive SettingsFault where
  | noDocument (fault : Document.Fault)
  /-- The document has a key that is none of the settings. -/
  | unknownKey (key : Text)
  /-- The value of a key has another type than it should. -/
  | wrongType (key : SettingsKey) (found : Text)
  /-- The value of a key is written like a number but stands for none, or for one beyond all
      types of numbers. -/
  | noNumber (key : SettingsKey)
  | badNamespace (fault : NamespaceFault)
deriving DecidableEq, Repr

namespace SettingsFault

/-- The wording for a document that is not as it should be. -/
def headline : Text := "TOML parse error"

/-- The wording for a key with too many parts. -/
def depthHeadline : Text := "recursion limit"

/-- How the sentence about an unknown key starts. -/
def unknownOpening : Text := "unknown field `"

/-- The sentence about an unknown key. -/
def unknownSentence (key : Text) : Text :=
  unknownOpening ++ key ++ "`, expected `" ++ SettingsKey.namespacePath.spelling ++ "` or `" ++
    SettingsKey.banner.spelling ++ "`"

/-- The wording of the fault. A sentence about an unknown key takes several lines if the key
    does. Only its last line is shown, and only if that reads as such a sentence by itself. -/
def message : SettingsFault → Text
  | noDocument .malformed | noNumber _ => headline
  | noDocument .longKey => depthHeadline ++ ['\n']
  | unknownKey key =>
    let last := (unknownSentence key).lines.getLast?.getD []
    if unknownOpening.isPrefixOf last then last else headline
  | wrongType key found => "invalid type: " ++ found ++ ", expected " ++ key.expected
  | badNamespace fault => fault.message

/-- The wording of the fault where a fault of the document is told by a headline alone. -/
def brief : SettingsFault → Text
  | badNamespace fault => fault.message
  | noDocument .longKey => depthHeadline
  | _ => headline

end SettingsFault

/-- Tells what a text says about the settings, before the check of their namespace. -/
abbrev SettingsReader := Text → Except SettingsFault Settings

namespace Settings

/-- The fault of a value that has another type than its key asks for. -/
def mismatch (key : SettingsKey) (v : Document.Value) : SettingsFault :=
  match v.describe? with
  | some found => .wrongType key found
  | none => .noNumber key

/-- The settings with the value of a key. -/
def withEntry (s : Settings) (entry : Text × Document.Value) : Except SettingsFault Settings :=
  match SettingsKey.ofText? entry.1, entry.2 with
  | none, _ => .error (.unknownKey entry.1)
  | some .namespacePath, .string path => .ok { s with namespacePath := path }
  | some .banner, .boolean b => .ok { s with banner := b }
  | some key, v => .error (mismatch key v)

/-- The settings of the entries of a document, taken in the order of their keys. -/
def ofEntries (entries : Document.Entries) : Except SettingsFault Settings :=
  (entries.mergeSort fun a b => a.1.isAtMost b.1).foldlM withEntry {}

/-- The settings with the check of their namespace. -/
def checked (s : Settings) : Except SettingsFault Settings :=
  match namespaceFault? s.namespacePath with
  | none => .ok s
  | some fault => .error (.badNamespace fault)

/-- Reads a text as a document. -/
def unchecked : SettingsReader := fun t =>
  match Document.read t with
  | .error fault => .error (.noDocument fault)
  | .ok entries => ofEntries entries

/-- Settings with a check behind them are valid. -/
theorem isValid_of_checked {s s' : Settings} (h : s.checked = .ok s') : s'.IsValid := by
  unfold checked at h
  split at h
  · next hn => cases h; exact hn
  · cases h

end Settings

end ShaderVariants
