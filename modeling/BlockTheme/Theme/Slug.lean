import BlockTheme.Document
import BlockTheme.Text.Slug

/-!
# Names of themes

The name under which a document's theme is kept. A title that gives no slug gives the default one.
-/
namespace BlockTheme

/-- The name of a theme whose title gives none. -/
def Theme.defaultSlug : String := "ai-theme"

def Document.slug (document : Document) : String :=
  let slug := Text.slugOf document.metadata.title
  if slug.isEmpty then Theme.defaultSlug else slug

end BlockTheme
