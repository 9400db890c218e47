import BraceTemplate.Registry.Manifest

/- The manifests that are always at hand: one for each group of components that a profile
   can have, and one for each content management system. -/
namespace BraceTemplate
namespace BuiltinManifests

/-! Short forms of declarations. -/

def plain (name type : String) : String × Schema := (name, .ofType type)

def needed (name type : String) : String × Schema :=
  (name, { Schema.ofType type with required := true })

def preset (name type : String) (fallback : Json.Value) : String × Schema :=
  (name, { Schema.ofType type with fallback := some fallback })

/-- A prop that takes one of several words. -/
def word (name : String) (choices : List String) (fallback : String) : String × Schema :=
  (name, { Schema.ofType "string" with
    choices := some (choices.map .string), fallback := some (.string fallback) })

/-- A prop that takes one of several numbers. -/
def number (name : String) (choices : List Int) (fallback : Int) : String × Schema :=
  (name, { Schema.ofType "integer" with
    choices := some (choices.map .int), fallback := some (.int fallback) })

def branch (name category : String) (tags : List String) (description : String)
    (props : List (String × Schema)) (distinct : Table.Distinct props := by decide) : Component :=
  { Component.plain name category with tags, description, props, distinct }

def leaf (name category : String) (tags : List String) (description : String)
    (props : List (String × Schema)) (distinct : Table.Distinct props := by decide) : Component :=
  { branch name category tags description props distinct with leaf := true }

def param (name type : String) : Parameter := ⟨name, type, false, none, none⟩

def neededParam (name type : String) : Parameter := ⟨name, type, true, none, none⟩

def presetParam (name type : String) (fallback : Json.Value) : Parameter :=
  ⟨name, type, false, some fallback, none⟩

def filter (name returnType description : String) (params : List Parameter) : FilterSpec :=
  { FilterSpec.plain name with returnType, description, params }

def escaping (name returnType description : String) (params : List Parameter) : FilterSpec :=
  { filter name returnType description params with escaping := true }

/-- A manifest with one namespace, whose declarations have their own names as keys. -/
def declare (name origin nsPrefix : String) (platforms : List Platform)
    (components : List Component) (filters : List FilterSpec) : Manifest :=
  Manifest.fill
    ⟨name, "1.0.0", some origin, [(origin, nsPrefix)], platforms,
      components.map fun c => (c.name, c), filters.map fun f => (f.name, f)⟩

/-! The manifests. -/

/-- What every profile has. -/
def core : Manifest :=
  declare "core" "core" "ikb_"
    [⟨"web", .web⟩, ⟨"amp", .web⟩, ⟨"pwa", .web⟩, ⟨"ios", .mobile⟩, ⟨"android", .mobile⟩,
     ⟨"electron", .desktop⟩]
    [leaf "ikb_text" "basic" ["text", "typography"] "Inline or block text"
        [plain "content" "string",
         word "tag" ["p", "span", "div", "h1", "h2", "h3", "h4", "h5", "h6"] "p"],
     branch "ikb_link" "basic" ["navigation"] "Hyperlink wrapping its children"
        [needed "href" "url",
         word "target" ["_self", "_blank"] "_self",
         plain "rel" "string"],
     { branch "ikb_container" "basic" ["structure"] "Generic wrapper element"
        [("id", { Schema.ofType "string" with pattern := some "^[A-Za-z][A-Za-z0-9_-]*$" }),
         plain "class" "string"] with
        handler := some "container" },
     leaf "ikb_icon" "basic" ["media"] "Icon from the theme icon set"
        [("name", { Schema.ofType "string" with required := true, minLength := some 1 }),
         preset "size" "integer" (.int 16)]]
    [escaping "escape" "string" "Escape HTML special characters" [],
     { escaping "e" "string" "Alias of escape" [] with
        implementation := some "escape" },
     escaping "esc_html" "string" "Escape for HTML text content" [],
     escaping "esc_attr" "string" "Escape for HTML attribute values" [],
     escaping "esc_url" "url" "Sanitize and escape a URL" [],
     filter "raw" "any" "Output the value unchanged" [],
     filter "upper" "string" "Convert to upper case" [],
     filter "lower" "string" "Convert to lower case" [],
     filter "capitalize" "string" "Upper-case the first character" [],
     filter "title" "string" "Upper-case the first character of every word" [],
     filter "trim" "string" "Strip surrounding whitespace" [],
     filter "truncate" "string" "Shorten to at most length characters"
        [neededParam "length" "integer",
         presetParam "end" "string" (.string "...")],
     filter "default" "any" "Fallback for null, empty or false values"
        [neededParam "value" "any"],
     filter "join" "string" "Join array items with a separator"
        [presetParam "separator" "string" (.string ", ")],
     filter "length" "integer" "Length of a string, array or object" [],
     filter "json" "string" "Serialize as JSON" [],
     escaping "url_encode" "string" "Percent-encode for use in a query string" []]

/-- Sections and grids of a page. -/
def layout : Manifest :=
  declare "layout" "layout" "ikb_"
    []
    [branch "ikb_section" "layout" ["structure", "page"] "Full-width page section"
        [word "type" ["hero", "content", "feature", "cta", "footer"] "content",
         plain "title" "string",
         preset "bg" "color" (.string "transparent"),
         preset "full_width" "boolean" (.bool false)],
     branch "ikb_grid" "layout" ["structure"] "Responsive grid"
        [number "columns" [1, 2, 3, 4, 6, 12] 12,
         word "gap" ["none", "small", "medium", "large"] "medium"],
     branch "ikb_column" "layout" ["structure"] "Grid column"
        [preset "span" "integer" (.int 12)],
     leaf "ikb_spacer" "layout" [] "Vertical whitespace"
        [word "size" ["small", "medium", "large"] "medium"],
     leaf "ikb_divider" "layout" [] "Horizontal rule"
        [word "style" ["solid", "dashed", "dotted"] "solid",
         plain "color" "color"]]
    []

/-- Headings, cards and lists of content. -/
def content : Manifest :=
  declare "content" "content" "ikb_"
    []
    [branch "ikb_heading" "content" ["typography"] "Section heading"
        [number "level" [1, 2, 3, 4, 5, 6] 2,
         plain "text" "string"],
     leaf "ikb_post_list" "content" ["query"] "List of posts from a content source"
        [preset "source" "string" (.string "posts"),
         preset "limit" "integer" (.int 10),
         word "order" ["asc", "desc"] "desc"],
     branch "ikb_card" "content" ["teaser"] "Content card"
        [("title", { Schema.ofType "string" with maxLength := some 120 }),
         plain "href" "url"],
     leaf "ikb_menu" "content" ["navigation"] "Navigation menu registered by the CMS"
        [needed "location" "string"],
     leaf "ikb_published" "content" ["meta"] "Publication date of the current entry"
        [plain "date" "date",
         preset "format" "string" (.string "%B %e, %Y")]]
    [filter "striptags" "string" "Remove HTML tags" [],
     filter "nl2br" "string" "Insert <br /> before newlines" [],
     escaping "slugify" "string" "Lower-case URL slug" [],
     filter "date" "string" "Format a date, timestamp or RFC 3339 string"
        [presetParam "format" "string" (.string "%Y-%m-%d")]]

/-- Images, videos and maps. -/
def media : Manifest :=
  declare "media" "media" "ikb_"
    []
    [leaf "ikb_image" "media" ["image"] "Responsive image"
        [needed "src" "url",
         preset "alt" "string" (.string ""),
         plain "width" "integer",
         plain "height" "integer",
         word "loading" ["lazy", "eager"] "lazy"],
     leaf "ikb_video" "media" ["video"] "Embedded video player"
        [needed "src" "url",
         plain "poster" "url",
         preset "autoplay" "boolean" (.bool false)],
     branch "ikb_gallery" "media" ["image"] "Image gallery wrapping image children"
        [preset "columns" "integer" (.int 3)],
     { leaf "ikb_map" "media" ["embed"] "Interactive map"
        [needed "lat" "float",
         needed "lng" "float",
         preset "zoom" "integer" (.int 12)] with
        platforms := .only ["web", "pwa"] }]
    [{ filter "srcset" "string" "Build a srcset attribute for an image"
        [neededParam "sizes" "string"] with
        platforms := .only ["web", "amp", "pwa"] },
     filter "image_url" "url" "URL of an image rendition"
        [presetParam "size" "string" (.string "full")]]

/-- Forms and their fields. -/
def forms : Manifest :=
  declare "forms" "forms" "ikb_"
    []
    [branch "ikb_form" "forms" ["form"] "Form wrapper"
        [needed "action" "url",
         word "method" ["get", "post"] "post"],
     leaf "ikb_input" "forms" ["field"] "Single-line input"
        [("name", { Schema.ofType "string" with
            required := true, pattern := some "^[A-Za-z_][A-Za-z0-9_-]*$" }),
         word "type" ["text", "email", "password", "number", "tel", "url", "date", "hidden"]
           "text",
         plain "label" "string",
         plain "placeholder" "string",
         preset "required" "boolean" (.bool false),
         plain "maxlength" "integer"],
     leaf "ikb_textarea" "forms" ["field"] "Multi-line input"
        [needed "name" "string",
         preset "rows" "integer" (.int 4)],
     leaf "ikb_select" "forms" ["field"] "Drop-down list"
        [needed "name" "string",
         plain "options" "json"],
     branch "ikb_button" "forms" ["action"] "Button"
        [word "type" ["submit", "button", "reset"] "submit",
         ("label", { Schema.ofType "string" with minLength := some 1 })]]
    []

/-- Data for a front end that renders elsewhere. -/
def headless : Manifest :=
  declare "headless" "headless" "ikb_"
    []
    [leaf "ikb_api_field" "headless" ["data"] "Field of an API response"
        [needed "path" "string",
         plain "fallback" "any"],
     branch "ikb_collection" "headless" ["data", "query"] "Iterates a content collection"
        [needed "source" "string",
         preset "limit" "integer" (.int 20)],
     branch "ikb_slot" "headless" ["structure"] "Named slot filled by the front end"
        [needed "name" "string"]]
    [filter "pluck" "array" "Collect one key from every object of an array"
        [neededParam "key" "string"]]

/-- The parts of a WordPress theme. -/
def wordpress : Manifest :=
  declare "wordpress" "wp" "wp_"
    []
    [leaf "wp_menu" "cms" ["navigation"] "Menu assigned to a theme location"
        [needed "location" "string",
         preset "depth" "integer" (.int 0)],
     leaf "wp_widget_area" "cms" ["sidebar"] "Registered sidebar"
        [needed "id" "string"],
     leaf "wp_shortcode" "cms" ["embed"] "Rendered shortcode"
        [needed "code" "string"],
     { leaf "ikb_image" "media" ["image"] "Responsive image backed by the media library"
        [needed "src" "url",
         preset "alt" "string" (.string ""),
         plain "width" "integer",
         plain "height" "integer",
         word "loading" ["lazy", "eager"] "lazy",
         plain "attachment_id" "integer"] with
        origin := some "media", handler := some "wp_image" }]
    [escaping "wp_kses_post" "string" "Allow only post-safe HTML" [],
     { escaping "esc_textarea" "string" "Escape for textarea content" [] with
        implementation := some "esc_html" }]

/-- The parts of a Drupal theme. -/
def drupal : Manifest :=
  declare "drupal" "drupal" "drupal_"
    []
    [leaf "drupal_block" "cms" ["block"] "Block plugin"
        [needed "plugin" "string"],
     leaf "drupal_view" "cms" ["query"] "Views display"
        [needed "view" "string",
         preset "display" "string" (.string "default")],
     branch "drupal_region" "cms" ["structure"] "Theme region"
        [needed "name" "string"]]
    [filter "t" "string" "Translate an interface string" [param "context" "string"],
     escaping "check_markup" "string" "Run text through a text format"
        [presetParam "format" "string" (.string "basic_html")]]

/-- The parts of a Joomla template. -/
def joomla : Manifest :=
  declare "joomla" "joomla" "joomla_"
    []
    [leaf "joomla_module" "cms" ["module"] "Modules published in a position"
        [needed "position" "string",
         word "style" ["none", "card", "outline"] "none"],
     leaf "joomla_message" "cms" ["system"] "System message queue" [],
     leaf "joomla_component" "cms" ["system"] "Output of the active component" []]
    [filter "jtext" "string" "Translate a language constant" []]

/-- The parts of a site without a further system. -/
def native : Manifest :=
  declare "native" "native" "native_"
    []
    [leaf "native_nav" "cms" ["navigation"] "Navigation from the site configuration"
        [plain "items" "json",
         word "orientation" ["horizontal", "vertical"] "horizontal"],
     branch "native_entry" "cms" ["data"] "Current content entry"
        [preset "collection" "string" (.string "pages")]]
    []

end BuiltinManifests

/-- The names of the manifests that are always at hand. -/
inductive BuiltinManifest where
  | core
  | layout
  | content
  | media
  | forms
  | headless
  | wordpress
  | drupal
  | joomla
  | native
  deriving DecidableEq, Repr

namespace BuiltinManifest

def name : BuiltinManifest → String
  | .core => "core"
  | .layout => "layout"
  | .content => "content"
  | .media => "media"
  | .forms => "forms"
  | .headless => "headless"
  | .wordpress => "wordpress"
  | .drupal => "drupal"
  | .joomla => "joomla"
  | .native => "native"

def manifest : BuiltinManifest → Manifest
  | .core => BuiltinManifests.core
  | .layout => BuiltinManifests.layout
  | .content => BuiltinManifests.content
  | .media => BuiltinManifests.media
  | .forms => BuiltinManifests.forms
  | .headless => BuiltinManifests.headless
  | .wordpress => BuiltinManifests.wordpress
  | .drupal => BuiltinManifests.drupal
  | .joomla => BuiltinManifests.joomla
  | .native => BuiltinManifests.native

/-- The path under which a registry lists the manifest. -/
def path (m : BuiltinManifest) : String := "manifests/" ++ m.name ++ ".json"

end BuiltinManifest

namespace Profile

/-- The manifests of a profile, in the order of their merging. -/
def manifests : Profile → List BuiltinManifest
  | .minimal => [.core]
  | .full => [.core, .layout, .content, .media, .forms]
  | .headless => [.core, .content, .headless]

end Profile

namespace Cms

/-- The manifest of a system, which is merged last. -/
def manifest : Cms → BuiltinManifest
  | .wordpress => .wordpress
  | .drupal => .drupal
  | .joomla => .joomla
  | .native => .native

end Cms
end BraceTemplate
