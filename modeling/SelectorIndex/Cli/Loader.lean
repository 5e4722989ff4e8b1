import SelectorIndex.Config
import SelectorIndex.Document.Decode

/-!
# Loaders

What a text holds is up to readers outside of this library, one for JSON and one
for YAML in all its forms. A loader stands for them: any text may have any value,
or none for any cause. The commands are the same for every loader; the one given
here knows the texts of JSON only.
-/

namespace SelectorIndex.Cli

/-- What a text of some format holds, or why it holds nothing of the kind. -/
structure Loader where
  config : Format → String → Except String (Config Json)
  node : Format → String → Except String Node

/-- The loader of texts of JSON, also of those that are read as YAML. -/
def Loader.json : Loader where
  config format s := (format.readText Config.record.reader s).mapError ReadError.message
  node format s := (format.readText Node.reader s).mapError ReadError.message

end SelectorIndex.Cli
