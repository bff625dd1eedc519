import BlockTheme.Theme.Fonts
import BlockTheme.Theme.Settings

/-!
# Files of a theme

The files besides the templates and the settings: the header of the theme's stylesheet, the
functions that load its stylesheets, and the stylesheet that was found with the page.
-/
namespace BlockTheme.Theme

/-- The text of `style.css`: the declaration of the theme in a comment. -/
def declarationFile (document : Document) : String :=
  let title := document.metadata.title
  let description := document.metadata.description
  "/*\n"
    ++ "Theme Name: " ++ (if title.isEmpty then "AI Generated Theme" else title) ++ "\n"
    ++ "Description: "
    ++ (if Text.isFilled description then description.getD ""
        else "WordPress Block Theme generated from AI HTML by Blocksmith.") ++ "\n"
    ++ "Version: 1.0.0\n"
    ++ "Requires at least: 6.0\n"
    ++ "Tested up to: 6.7\n"
    ++ "Requires PHP: 7.4\n"
    ++ "License: GPL-2.0-or-later\n"
    ++ "License URI: https://www.gnu.org/licenses/gpl-2.0.html\n"
    ++ "Text Domain: " ++ document.slug ++ "\n"
    ++ "*/\n"

/-- The names of functions begin with the theme's name, in which hyphens become underscores. -/
def functionPrefix (slug : String) : String :=
  String.ofList (slug.toList.map fun c => if c = '-' then '_' else c)

def enqueue (handle source version : String) : String :=
  "\twp_enqueue_style( '" ++ handle ++ "', " ++ source ++ ", array(), " ++ version ++ " );\n"

/-- The statements that load a theme's stylesheets: its web fonts, if it has any, and its own. -/
def enqueueStatements (document : Document) : String :=
  (match document.tokens.fonts.url? with
    | some url => enqueue (document.slug ++ "-google-fonts") ("'" ++ url ++ "'") "null"
    | none => "")
    ++ enqueue (document.slug ++ "-custom")
      "get_template_directory_uri() . '/assets/css/custom.css'" "'1.0.0'"

def functionDefinition (name body : String) : String :=
  "function " ++ name ++ "() \x7b\n" ++ body ++ "\x7d\n"

def hook (event name : String) : String := "add_action( '" ++ event ++ "', '" ++ name ++ "' );\n"

def functionsFile (document : Document) : String :=
  let start := functionPrefix document.slug
  let load := enqueueStatements document
  "<?php\n"
    ++ "/**\n"
    ++ " * Theme functions and definitions.\n"
    ++ " *\n"
    ++ " * @package " ++ document.slug ++ "\n"
    ++ " */\n"
    ++ "\n"
    ++ "if ( ! defined( 'ABSPATH' ) ) \x7b\n"
    ++ "\texit;\n"
    ++ "\x7d\n"
    ++ "\n"
    ++ functionDefinition (start ++ "_setup")
      "\tadd_theme_support( 'wp-block-styles' );\n\tadd_theme_support( 'editor-styles' );\n"
    ++ hook "after_setup_theme" (start ++ "_setup")
    ++ "\n"
    ++ functionDefinition (start ++ "_enqueue_styles") load
    ++ hook "wp_enqueue_scripts" (start ++ "_enqueue_styles")
    ++ "\n"
    ++ functionDefinition (start ++ "_enqueue_editor_assets") load
    ++ hook "enqueue_block_editor_assets" (start ++ "_enqueue_editor_assets")

/-- The comment at the head of the page's own stylesheet. -/
def stylesheetHeader : String := "/* Custom CSS extracted from AI-generated HTML */\n\n"

/-- The text of `custom.css`: the page's own stylesheet without blanks at its ends, or nothing but
the header if there is none. -/
def stylesheetFile (css : Option String) : String :=
  let body := Text.stripText (css.getD "")
  if body.isEmpty then stylesheetHeader else stylesheetHeader ++ body ++ "\n"

end BlockTheme.Theme
