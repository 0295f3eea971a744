import LinkPane.Page.Inspector

/-!
# The site

* `Page.ofUrl` -- the page at an address: the inspector at `/` and at `/inspect`, with or without a slash
  behind it; at all other paths there is nothing;
* `siteView` -- the document of a page.
-/

namespace LinkPane

open Markup

/-- The pages of the site. -/
inductive Page
  | inspector
  | notFound
  deriving DecidableEq, Repr

/-- The path of an address, which a query or a fragment may follow. -/
def pathOf (url : List Char) : List Char :=
  url.takeWhile fun c => c != '?' && c != '#'

/-- The paths of the inspector. -/
def inspectorPaths : List String :=
  ["/", "/inspect", "/inspect/"]

/-- The page at an address. -/
def Page.ofUrl (url : String) : Page :=
  if String.ofList (pathOf url.toList) ∈ inspectorPaths then .inspector else .notFound

/-- What a page shows when it is opened. -/
def Page.view : Page → List Piece
  | .inspector => Inspector.fresh.draw.1.view
  | .notFound => element "h1" [] [.text "Nothing to inspect here."]

/-- The title of the site. -/
def siteTitle : String := "Link inspection pane"

/-- The head of the document. -/
def headView : List Piece :=
  element "head" []
    (empty "meta" [.plain "charset" "UTF-8"] ++
      empty "meta" [.plain "name" "viewport",
        .plain "content" "width=device-width, initial-scale=1.0"] ++
      element "title" [] [.text siteTitle])

/-- The document of a page. -/
def siteView (page : Page) : List Piece :=
  element "html" [.plain "lang" "en", .plain "dir" "ltr"]
    (headView ++ element "body" [] (element "main" [.plain "class" "link-inspector-app"] page.view))

/-- The text of the document at an address. -/
def siteHtml (url : String) : String :=
  page (siteView (.ofUrl url))

end LinkPane
