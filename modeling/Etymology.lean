import Etymology.Assembly
import Etymology.Document.Source
import Etymology.Graph.Descendants
import Etymology.Project
import Etymology.Proofs.Assembly.Merging
import Etymology.Proofs.Assembly.References
import Etymology.Proofs.Assembly.Unsuitable
import Etymology.Proofs.Assembly.Words
import Etymology.Proofs.Daughter
import Etymology.Proofs.Document.Source
import Etymology.Proofs.Gating
import Etymology.Proofs.Graph.Naming
import Etymology.Proofs.Graph.Search
import Etymology.Proofs.Graph.Versions
import Etymology.Proofs.Letters.Boundaries
import Etymology.Proofs.Letters.Doubling
import Etymology.Proofs.Lexicon.Agglutination
import Etymology.Proofs.Lexicon.Blame
import Etymology.Proofs.Lexicon.Change
import Etymology.Proofs.Lexicon.Circular
import Etymology.Proofs.Lexicon.Frames
import Etymology.Proofs.Lexicon.Legible
import Etymology.Proofs.Lexicon.Listing
import Etymology.Proofs.Lexicon.Seeding
import Etymology.Proofs.Lexicon.Validated
import Etymology.Proofs.Lineage
import Etymology.Proofs.Phonology.Grammar
import Etymology.Proofs.Phonology.Leftmost
import Etymology.Proofs.Predicate.Alternatives
import Etymology.Proofs.Primitive.RoundTrip
import Etymology.Proofs.Project
import Etymology.Proofs.Text.Slug
