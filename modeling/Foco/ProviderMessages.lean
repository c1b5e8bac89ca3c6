import Foco.RustText
import Foco.ShownRuns

/-!
`sanitize_provider_stream_message` of `providers/lib.rs`: credentials in the free text of a
provider's error. Each marker is searched once, so that what stands behind a second occurrence of
it is shown.
-/
namespace Foco.ProviderMessages
open Foco.RustText Foco.FirstOccurrence Foco.RunMasking

end Foco.ProviderMessages
