import ApiDocs.Page.Module
import ApiDocs.Path.Basic
import ApiDocs.Site.Config
import ApiDocs.TextFile

/-!
# The files of the site

The site has a home page, an index of its modules, a configuration and a page for
each module.  The home page and the index are only written if they are not there.
-/

namespace ApiDocs.Site

/-- The home page. -/
def home (outputDir : Text) : TextFile :=
  { path := Path.join outputDir "index.md"
    content := "---\ntitle: Home\nnav_order: 1\n---\n" }

/-- The folder for the pages of modules. -/
def pagesFolder (outputDir : Text) : Text :=
  Path.join outputDir "modules"

/-- The index of the modules. -/
def index (outputDir : Text) : TextFile :=
  { path := Path.join (pagesFolder outputDir) "index.md"
    content :=
      "---\ntitle: Modules\nhas_children: true\npermalink: /docs/modules\nnav_order: 2\n---\n" }

/-- The path of the configuration. -/
def configPath (outputDir : Text) : Text :=
  Path.join outputDir "_config.yml"

/-- The path of the page of a module: the path of the module without its first part. -/
def pagePath (module : Module) (outputDir : Text) : Text :=
  Path.join (pagesFolder outputDir) (Text.joinWith "/" (module.path.drop 1) ++ ".md")

/-- The pages of the modules. -/
def pages (modules : List Module) (outputDir : Text) : List TextFile :=
  modules.mapIdx fun order module =>
    { path := pagePath module outputDir
      content := Page.text module order
      overwrite := true }

/-- The pattern for the pages that an earlier run may have left. -/
def stalePattern (outputDir : Text) : Text :=
  Path.join (Path.join outputDir "**") "*.ts.md"

end ApiDocs.Site
